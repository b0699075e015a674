import ChatServer.Web.Deletion
import ChatServer.Web.SingleStream

/-!
# Making a session again

A stream task keeps its session after this has left the registry, and `update_session` at
its end only looks whether there is a directory of that name.  So when a deleted session is
made again, a stream of the deleted one can write to the new directory.

It cannot if every object of the old session is quiet by then (`Held.Quiet`): its streams
are over or about to be cancelled, nobody is in its loop who might start another, and
nothing leads a new client to it.  `SettledFirst` asks for this in the one step in which
the directory comes to be, `Retired` is what is kept from then on.
-/

open FileTree

/-- A handler that has left its loop, or never enters it. -/
def HandlerPhase.Retired : HandlerPhase → Prop
  | refusing | closing | joining _ | ended => True
  | accepting | receiving | replying => False

namespace WsHandler

/-- Nothing happens on an object any more that writes to the store: its streams are over or
about to be cancelled, and no handler will start another. -/
structure State.Quiet (w : State) : Prop where
  handlers : ∀ (h : ℕ) (phase : HandlerPhase), w.At h phase → phase.Retired
  tasks : ∀ (n : ℕ) (task : StreamTask), w.tasks[n]? = some task →
    task.isDone = true ∨ task.cancelRequested = true

theorem State.Quiet.congr {w w' : State} (hw : w.Quiet) (hhandlers : w'.handlers = w.handlers)
    (htasks : w'.tasks = w.tasks) : w'.Quiet := by
  constructor
  · intro h phase hh
    rw [State.At, hhandlers] at hh
    exact hw.handlers h phase hh
  · intro n task hn
    rw [htasks] at hn
    exact hw.tasks n task hn

theorem State.Quiet.setHandler {w : State} (hw : w.Quiet) {h : ℕ} {old new : HandlerPhase}
    (hh : w.At h old) (hnew : new.Retired) : (w.setHandler h new).Quiet := by
  refine ⟨fun h' phase hh' ↦ ?_, hw.tasks⟩
  rcases (State.at_setHandler hh).mp hh' with ⟨-, rfl⟩ | ⟨-, hh'⟩
  · exact hnew
  · exact hw.handlers h' phase hh'

section

variable [UnicodeData] [SessionCodec] {a : SessionFileAdapter} {w w' : State} {i : Input}
  {o : List Obs}

/-- A step of a task leaves it cancelled if it was. -/
theorem cancelRequested_step {t t' : FileTree} {s s' : Session} {faults : List (Option Fault)}
    {task task' : StreamTask} {j : StreamInput} {o : List StreamObs}
    (hs : task.step a t s faults j = some ((t', s', task'), o)) :
    task'.cancelRequested = task.cancelRequested := by
  obtain ⟨⟨⟨t₁, s₁, phase⟩, o₁⟩, -, heq⟩ := Option.map_eq_some_iff.mp hs
  cases heq
  rfl

/-- A quiet object stays quiet unless a client is led to it. -/
theorem State.Quiet.step (hw : w.Quiet) (hs : Step a w i w' o) (hi : i ≠ .connects) :
    w'.Quiet := by
  have hloop : ∀ {h : ℕ} {phase : HandlerPhase}, w.At h phase → ¬ phase.Retired → w'.Quiet :=
    fun hh hphase ↦ absurd (hw.handlers _ _ hh) hphase
  cases hs with
  | connects | connectsTaken => exact absurd rfl hi
  | enters h hh => exact hloop hh id
  | refuses h hh => exact hw.setHandler hh trivial
  | acceptFails h phase hh hphase => exact hw.setHandler hh trivial
  | closed h hh => exact hw.setHandler hh trivial
  | malformed h hh | ping h hh | cancelNothing h hh => exact hloop hh id
  | cancel h n hh busy | refuseMessage h n content hh busy => exact hloop hh id
  | sendMessage h content hh idle => exact hloop hh id
  | replied h hh => exact hloop hh id
  | leaves h n phase hh hphase busy | leavesIdle h phase hh hphase idle =>
      refine hloop hh fun hretired ↦ ?_
      cases phase <;> first | exact hphase | exact hretired
  | joined h n task hh htask hdone =>
      have hreleased : (w.setHandler h .ended).Quiet := hw.setHandler hh trivial
      exact hreleased.congr rfl rfl
  | stream n j faults task task' tree session o htask hstep =>
      refine ⟨hw.handlers, fun n' task₁ hn' ↦ ?_⟩
      rcases (List.getElem?_set_iff htask).mp hn' with ⟨-, rfl⟩ | ⟨-, hn'⟩
      · rcases hw.tasks n task htask with hdone | hcancel
        · rw [StreamTask.step_of_isDone hdone] at hstep
          cases hstep
        · exact Or.inr ((cancelRequested_step hstep).trans hcancel)
      · exact hw.tasks n' task₁ hn'

/-- A quiet object writes nothing. -/
theorem State.Quiet.tree (hw : w.Quiet) (hs : Step a w i w' o) : w'.tree = w.tree := by
  rcases hs.tree with hsame | ⟨n, j, faults, task, -, htask, hdone, hcancel, -⟩
  · exact hsame
  · rcases hw.tasks n task htask with h | h
    · cases h.symm.trans hdone
    · cases h.symm.trans hcancel

end

end WsHandler

namespace Server

/-- Nothing leads a client to an object. -/
def Unreferred (w : Server) (k : ℕ) : Prop :=
  ∀ id, w.sessions.get? id ≠ some k ∧ ¬ w.Pending id k

/-- The objects of a session that were made before the one numbered `k` are quiet, and
nothing leads to them. -/
structure Retired (w : Server) (id : String) (k : ℕ) : Prop where
  le : k ≤ w.objects.length
  quiet : ∀ (j : ℕ) (obj : Held), j < k → w.objects[j]? = some obj → obj.sc.session.id = id →
    (obj.onTree w.tree).Quiet ∧ w.Unreferred j

section

variable [UnicodeData] [SessionCodec] [LlmPortFactory] {app : App} {w w' : Server} {i : Input}
  {o o' : List Obs} {id : String} {k : ℕ}

/-- When the directory of a session comes to be, the objects there are of it are quiet, and
nothing leads to them. -/
def SettledFirst (app : App) (id : String) (w : Server) : Input → Prop
  | .creates r now ref faults => w.At r (.creating id) →
      ¬ w.tree.pathExists (app.repository.sessionDir id) →
        (app.createSession w.tree id now ref faults).1.pathExists (app.repository.sessionDir id) →
          ∀ (j : ℕ) (obj : Held), w.objects[j]? = some obj → obj.sc.session.id = id →
            (obj.onTree w.tree).Quiet ∧ w.Unreferred j
  | _ => True

/-- An object of the state after a step is new, or was there, and was left alone or has made
a step of its own.  A new client is led to it only by the registry or a request. -/
theorem Step.object_cases (hs : Step app w i w' o) {j : ℕ} {obj' : Held}
    (hobj' : w'.objects[j]? = some obj') :
    w.objects.length ≤ j ∨ ∃ obj, w.objects[j]? = some obj ∧ (obj' = obj ∨
      ∃ i' c o', WsHandler.Step app.repository (obj.onTree w.tree) i' c o' ∧ obj' = .of c ∧
        (i' = .connects → ¬ w.Unreferred j)) := by
  have hmoved : ∀ {k : ℕ} {obj : Held} {i' : WsHandler.Input} {c : WsHandler.State}
      {o' : List WsHandler.Obs}, w.objects[k]? = some obj →
        WsHandler.Step app.repository (obj.onTree w.tree) i' c o' →
          (i' = .connects → ¬ w.Unreferred k) → (w.objects.set k (.of c))[j]? = some obj' →
            w.objects.length ≤ j ∨ ∃ obj, w.objects[j]? = some obj ∧ (obj' = obj ∨
              ∃ i' c o', WsHandler.Step app.repository (obj.onTree w.tree) i' c o' ∧
                obj' = .of c ∧ (i' = .connects → ¬ w.Unreferred j)) := by
    intro k obj i' c o' hobj hstep hreferred hset
    rcases (List.getElem?_set_iff hobj).mp hset with ⟨rfl, rfl⟩ | ⟨-, hsame⟩
    · exact Or.inr ⟨obj, hobj, Or.inr ⟨i', c, o', hstep, rfl, hreferred⟩⟩
    · exact Or.inr ⟨obj', hsame, Or.inl rfl⟩
  cases hs with
  | connectHeld id k obj held hobj =>
      refine hmoved hobj (connect_step obj w.tree) (fun _ h ↦ ?_) hobj'
      exact (h id).1 held
  | resumesConnect r id k obj hr hobj =>
      refine hmoved hobj (connect_step obj w.tree) (fun _ h ↦ ?_) hobj'
      exact (h id).2 ⟨r, _, hr, rfl⟩
  | object k i obj c o hi hobj hstep =>
      exact hmoved hobj hstep (fun heq ↦ absurd heq hi) hobj'
  | creates r id now ref faults tree session o hr hcreate ho =>
      rcases List.getElem?_concat_iff.mp hobj' with hsame | ⟨rfl, -⟩
      · exact Or.inr ⟨obj', hsame, Or.inl rfl⟩
      · exact Or.inl le_rfl
  | loads r id loader ref session hr hget =>
      rcases List.getElem?_concat_iff.mp hobj' with hsame | ⟨rfl, -⟩
      · exact Or.inr ⟨obj', hsame, Or.inl rfl⟩
      · exact Or.inl le_rfl
  | loadFails r id loader ref e hr hget =>
      rw [objects_onLoadFails] at hobj'
      exact Or.inr ⟨obj', hobj', Or.inl rfl⟩
  | _ => exact Or.inr ⟨obj', hobj', Or.inl rfl⟩

/-- Nothing leads to an object to which nothing led. -/
theorem Unreferred.step {j : ℕ} (hj : w.Unreferred j) (hs : Step app w i w' o)
    (hlt : j < w.objects.length) : w'.Unreferred j :=
  fun id' ↦ hs.unreferred (hj id') fun heq ↦ absurd heq hlt.ne

theorem Step.objects_length_le (hs : Step app w i w' o) :
    w.objects.length ≤ w'.objects.length := by
  cases hs.objects with
  | same h => exact (congrArg List.length h).ge
  | fresh session h =>
      rw [h, List.length_append]
      exact Nat.le_add_right _ _
  | moved k obj j c o hobj hstep h hj =>
      rw [h, List.length_set]

/-- **One step** leaves what is retired as it is. -/
theorem Retired.step (hw : w.Retired id k) (hs : Step app w i w' o) : w'.Retired id k := by
  refine ⟨hw.le.trans hs.objects_length_le, fun j obj' hlt hobj' hid ↦ ?_⟩
  have hj : j < w.objects.length := hlt.trans_le hw.le
  rcases hs.object_cases hobj' with hnew | ⟨obj, hobj, rfl | ⟨i', c, o', hstep, rfl, hreferred⟩⟩
  · exact absurd hj (not_lt.mpr hnew)
  · obtain ⟨hquiet, hunreferred⟩ := hw.quiet j obj' hlt hobj hid
    exact ⟨hquiet.congr rfl rfl, hunreferred.step hs hj⟩
  · have hid' : obj.sc.session.id = id := hstep.session_id.symm.trans hid
    obtain ⟨hquiet, hunreferred⟩ := hw.quiet j obj hlt hobj hid'
    have hc : c.Quiet := hquiet.step hstep fun heq ↦ hreferred heq hunreferred
    exact ⟨hc.congr rfl rfl, hunreferred.step hs hj⟩

/-- Whenever the directory of a session was made, the older objects of it are retired. -/
theorem retired_of_run {t : FileTree} {is : List Input}
    (h : (machine app).run (.start t) is = some (w, o))
    (hsettled : (machine app).StepsMeet (SettledFirst app id) (.start t) is) :
    ∀ k, .makes id k ∈ o → w.Retired id k := by
  refine Mealy.run_induction_of_steps
    (P := fun _ w o ↦ ∀ k, .makes id k ∈ o → w.Retired id k) (Q := SettledFirst app id) ?_ ?_ h
    hsettled
  · exact fun _ hmem ↦ absurd hmem List.not_mem_nil
  · intro _ w o i w' o' hw hi hstep k hmem
    have hs := Step.of_step hstep
    rcases List.mem_append.mp hmem with hmem | hmem
    · exact (hw k hmem).step hs
    · rcases hs.told hmem with hordinary |
        ⟨r, id', now, ref, faults, rfl, hr, hbefore, hafter, hob⟩ | ⟨r, id', fault, -, -, hob⟩
      · exact hordinary.elim
      · cases hob
        refine Retired.step ⟨le_rfl, fun j obj _ hobj hid ↦ ?_⟩ hs
        exact hi hr hbefore hafter j obj hobj hid
      · unfold deleteReply at hob
        split at hob <;> cases hob

/-- In every run in which the directory of a session comes to be only when the objects there
are of it have been settled, no step of an object of the session that is older than the
directory changes the store. -/
theorem not_overwritten_of_run {t : FileTree} {is : List Input}
    (h : (machine app).run (.start t) is = some (w, o))
    (hsettled : (machine app).StepsMeet (SettledFirst app id) (.start t) is)
    (hmade : .makes id k ∈ o) {j : ℕ} (hj : j < k) {obj : Held} (hobj : w.objects[j]? = some obj)
    (hid : obj.sc.session.id = id) {i' : WsHandler.Input}
    (hs : (machine app).step w (.object j i') = some (w', o')) : w'.tree = w.tree := by
  obtain ⟨hquiet, -⟩ := (retired_of_run h hsettled k hmade).quiet j obj hj hobj hid
  cases Step.of_step hs with
  | object _ _ obj' c o' hi hobj' hstep =>
      cases hobj.symm.trans hobj'
      exact hquiet.tree hstep

end

/-! ## Runs to evaluate -/

/-- The client of a session leaves, which cancels its stream, before the session is deleted
and made again. -/
def sampleSettled : List Input :=
  sampleFirstMessage ++ [.delete "s" none, .object 0 (.handler 0 .disconnects), .closed 1 none,
    .post "s", .creates 2 ⟨1⟩ ⟨1⟩ []]

/-- The stream of a session is sending its `DoneFrame` when the session is deleted and made
again. -/
def sampleUnsettled : List Input :=
  sampleFirstMessage ++
    [.object 0 (.stream 0 (.runs (.ofNat 1)) []),
      .object 0 (.stream 0 (.resumes (.event (.textChunk "yo"))) []),
      .object 0 (.stream 0 .sent []),
      .object 0 (.stream 0 (.resumes (.event (.completionDone ⟨"p", "m", ⟨1, 2⟩, .stop, 0⟩))) []),
      .object 0 (.stream 0 (.resumes (.mainEnds (.ofNat 2) 0)) []),
      .delete "s" none, .closed 1 none, .post "s", .creates 2 ⟨1⟩ ⟨1⟩ []]

theorem settledFirst_sampleSettled :
    sampleMachine.StepsMeet (@SettledFirst App.sampleCodec App.sampleFactory App.sample "s")
      sampleStart sampleSettled := by
  refine .cons rfl trivial ?_
  refine .cons rfl ?_ ?_
  · intro _ _ _ j obj hobj
    cases hobj
  refine .cons rfl trivial ?_
  refine .cons rfl trivial ?_
  refine .cons rfl trivial ?_
  refine .cons rfl trivial ?_
  refine .cons rfl trivial ?_
  refine .cons rfl trivial ?_
  refine .cons rfl trivial ?_
  refine .cons rfl trivial ?_
  refine .cons rfl ?_ .nil
  intro _ _ _ j obj hobj _
  cases j with
  | succ j => cases hobj
  | zero =>
      cases hobj
      refine ⟨⟨?_, ?_⟩, fun id ↦ ⟨nofun, not_pending_of_all rfl id 0⟩⟩
      · intro h phase hh
        cases h with
        | succ h => cases hh
        | zero =>
            cases hh
            trivial
      · intro n task hn
        cases n with
        | succ n => cases hn
        | zero =>
            cases hn
            exact Or.inr rfl

/-- The cancellation is delivered after the session was made again, and writes nothing. -/
theorem not_overwritten_sampleSettled : ∃ w o w' o',
    sampleMachine.run sampleStart sampleSettled = some (w, o) ∧ .makes "s" 1 ∈ o ∧
      sampleMachine.step w (.object 0 (.stream 0 .cancelled [])) = some (w', o') ∧
      w'.tree = w.tree := by
  obtain ⟨⟨w, o⟩, hrun, heval⟩ := Option.map_eq_some_iff.mp
    (show (sampleMachine.run sampleStart sampleSettled).map (fun r ↦ (r.2.getLast?,
        r.1.objects[0]?.map (·.sc.session.id),
        (sampleMachine.step r.1 (.object 0 (.stream 0 .cancelled []))).map Prod.snd)) =
      some (some (.makes "s" 1), some "s", some []) from rfl)
  obtain ⟨hlast, heval⟩ := Prod.mk.inj heval
  obtain ⟨hid, hstep⟩ := Prod.mk.inj heval
  obtain ⟨obj, hobj, hid⟩ := Option.map_eq_some_iff.mp hid
  obtain ⟨⟨w', o'⟩, hstep, -⟩ := Option.map_eq_some_iff.mp hstep
  have hmade : .makes "s" 1 ∈ o := List.mem_of_getLast? hlast
  refine ⟨w, o, w', o', hrun, hmade, hstep, ?_⟩
  exact @not_overwritten_of_run .asciiOnly App.sampleCodec App.sampleFactory App.sample w w' o o'
    "s" 1 App.sampleTree sampleSettled hrun settledFirst_sampleSettled hmade 0 Nat.one_pos obj hobj
    hid _ hstep

/-- What the old stream saves is put in the place of what was stored for the session that
was made again. -/
theorem overwritten_by_old_stream : ∃ w o w' o',
    sampleMachine.run sampleStart sampleUnsettled = some (w, o) ∧ .makes "s" 1 ∈ o ∧
      sampleMachine.step w (.object 0 (.stream 0 .sent [])) = some (w', o') ∧
      w.tree.read ["sessions", "s", "session_messages"] = .ok "\x7b\"records\": []\x7d" ∧
      w'.tree.read ["sessions", "s", "session_messages"] = .ok App.sampleRecordsText := by
  obtain ⟨⟨w, o⟩, hrun, heval⟩ := Option.map_eq_some_iff.mp
    (show (sampleMachine.run sampleStart sampleUnsettled).map (fun r ↦ (r.2.getLast?,
        r.1.tree.read ["sessions", "s", "session_messages"],
        (sampleMachine.step r.1 (.object 0 (.stream 0 .sent []))).map fun r ↦
          r.1.tree.read ["sessions", "s", "session_messages"])) =
      some (some (.makes "s" 1), .ok "\x7b\"records\": []\x7d", some (.ok App.sampleRecordsText))
      from rfl)
  obtain ⟨hlast, heval⟩ := Prod.mk.inj heval
  obtain ⟨hread, hstep⟩ := Prod.mk.inj heval
  obtain ⟨⟨w', o'⟩, hstep, hread'⟩ := Option.map_eq_some_iff.mp hstep
  exact ⟨w, o, w', o', hrun, List.mem_of_getLast? hlast, hstep, hread, hread'⟩

end Server
