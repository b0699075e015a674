import ChatServer.Accounting.Pricing
import ChatServer.Web.Calls
import ChatServer.Web.Stored

/-!
# The books of the server

As the server runs its sessions one call after another (`Server.calls_of_run`), their books are
right whatever its clients do.  What the routes show of the tokens and costs of a session is what
it was made with and what the LLMs reported to its streams since (`Server.booked_of_run`), and
what a `DoneFrame` says is what they reported in the turn it ends (`Server.told_of_run`).
-/

open FileTree

namespace Session

theorem receipts_filter (o : List Obs) : receipts (o.filter (· ≠ .closed)) = receipts o := by
  induction o with
  | nil => rfl
  | cons ob o ih =>
      cases ob with
      | closed => exact ih
      | received role llm e => exact congrArg (⟨role, llm, e⟩ :: ·) ih
      | called role request | yielded event | returned | raised e => exact ih

theorem contributions_filter (billing : Role → Option ModelBilling) (o : List Obs) :
    contributions billing (o.filter (· ≠ .closed)) = contributions billing o := by
  rw [contributions, receipts_filter, contributions]

theorem latestCall_filter (o : List Obs) :
    latestCall (o.filter (· ≠ .closed)) = (latestCall o).filter (· ≠ .closed) := by
  have hcall : (fun ob : Obs ↦ !decide (ob ≠ .closed) || !ob.isCall) = fun ob ↦ !ob.isCall := by
    funext ob
    cases ob with
    | called role request | received role llm e | yielded event | returned | raised e => rfl
    | closed => rfl
  rw [latestCall, latestCall, ← List.filter_reverse, List.takeWhile_filter, List.filter_reverse,
    hcall]

section

variable [UnicodeData] {billing : Role → Option ModelBilling} {s : Session}
  {c : Session × Option Phase} {o : List Obs}

/-- The books of a session after calls from a state in which it was wired to its own statistics
and had not been called. -/
theorem Calls.booked (hw : Wired billing s) (hnew : s.usageStats.currentInvocation = {})
    (h : Calls (s, none) c o) : Booked billing s.usageStats.lifecycleTotalData c o := by
  obtain ⟨inputs, o', hrun, hset, rfl⟩ := h
  have hbooked : Booked billing s.usageStats.lifecycleTotalData c o' := by
    refine turns_induction (P := fun _ c o ↦
      Booked billing s.usageStats.lifecycleTotalData c o) ?_ ?_ hrun hset
    · exact ⟨hw, rfl, hnew, fun event he ↦ absurd he List.not_mem_nil⟩
    · exact fun _ _ _ _ _ _ hbooked hs hi ↦ hbooked.step hs hi
  refine ⟨hbooked.wired, ?_, ?_, fun event he ↦ hbooked.done event ?_⟩
  · rw [contributions_filter]
    exact hbooked.lifecycle
  · rw [latestCall_filter, contributions_filter]
    exact hbooked.current
  · rw [latestCall_filter] at he
    exact List.mem_of_mem_filter he

end

end Session

theorem App.Makes.built [SessionCodec] [LlmPortFactory] {app : App} {s : Session}
    (h : app.Makes s) : ∃ id, app.Built id s := by
  rcases h with ⟨t, id, now, ref, faults, t', hcreate⟩ | ⟨t, id, ref, hget⟩
  · exact ⟨id, (Built.of_buildSession (createSession_ok hcreate).1).1⟩
  · obtain ⟨state, -, hrestore⟩ := Py.bind_eq_ok.mp hget
    exact ⟨id, (Built.of_restoreSession hrestore).1⟩

/-- A session that was just made has not been called. -/
theorem App.Makes.current [SessionCodec] [LlmPortFactory] {app : App} {s : Session}
    (h : app.Makes s) : s.usageStats.currentInvocation = {} := by
  rcases h with ⟨t, id, now, ref, faults, t', hcreate⟩ | ⟨t, id, ref, hget⟩
  · have hbuild := (createSession_ok hcreate).1
    unfold buildSession at hbuild
    simp only at hbuild
    split at hbuild
    · cases hbuild
    · obtain ⟨llm, -, hbuild⟩ := Py.bind_eq_ok.mp hbuild
      obtain ⟨strategyLlm, -, hbuild⟩ := Py.bind_eq_ok.mp hbuild
      obtain ⟨strategy, -, hbuild⟩ := Py.bind_eq_ok.mp hbuild
      cases hbuild
      rfl
  · obtain ⟨state, -, hrestore⟩ := Py.bind_eq_ok.mp hget
    obtain ⟨llm, -, hrestore⟩ := Py.bind_eq_ok.mp hrestore
    obtain ⟨strategyLlm, -, hrestore⟩ := Py.bind_eq_ok.mp hrestore
    obtain ⟨strategy, -, hrestore⟩ := Py.bind_eq_ok.mp hrestore
    cases hrestore
    rfl

namespace Server

/-- What the LLMs contributed to the books of an object in a trace, at the rates of a session. -/
def contributions (app : App) (s : Session) (k : ℕ) (o : List Obs) : List Contribution :=
  Session.contributions (app.rates s) (o.flatMap (·.generated k))

section

variable [UnicodeData] [SessionCodec] [LlmPortFactory] {app : App} {w : Server} {o : List Obs}
  {k : ℕ} {obj : Held}

/-- **The books of the server.**  In every state that a run comes to in which `accept()` does not
suspend, whatever turns of whatever clients have been completed, failed or been cancelled, the
statistics a session shows are those it was made with and, each exactly once and at the rate of
its LLM, all tokens that an LLM reported to one of its streams. -/
theorem booked_of_run {t : FileTree} {is : List Input}
    (h : (machine app).run (.start t) is = some (w, o))
    (hatomic : (machine app).StepsMeet AtomicAccept (.start t) is)
    (hobj : w.objects[k]? = some obj) :
    ∃ s, MadeWith app t is k s ∧ ∀ info, GetRoute.info.show obj.sc.session = .info info → ∀ p m,
      (info.statistics.getD ∅).entry p m = Contribution.sumStats
        ((s.usageStats.lifecycleTotalData.entry p m).toList ++
          Contribution.statsFor (contributions app s k o) p m) := by
  obtain ⟨s, hmade, hcalls⟩ := calls_of_run h hatomic hobj
  obtain ⟨id, hbuilt⟩ := hmade.1.built
  have hbooked := hcalls.booked hbuilt.wired hmade.1.current
  refine ⟨s, hmade, fun info hinfo p m ↦ ?_⟩
  cases hinfo
  have hlife : obj.sc.session.usageStats.lifecycleTotal = _ := hbooked.lifecycle
  show (obj.sc.session.usageStats.lifecycleTotalData.orNone.getD ∅).entry p m = _
  rw [StatsData.getD_orNone, SessionUsageStats.lifecycleTotalData, hlife]
  exact UsageStatsAccumulator.entry_addAll (UsageStatsAccumulator.sumStats_toList _).symm _

end

/-- A client asks, and the LLM answers and reports its tokens. -/
def sampleCounted : List Input :=
  sampleFirstMessage ++ [.object 0 (.stream 0 (.runs (.ofNat 1)) [])] ++
    (App.sampleAnswer.take 3).map (.object 0)

theorem atomicAccept_sampleCounted :
    sampleMachine.StepsMeet AtomicAccept sampleStart sampleCounted :=
  .of_checks rfl

/-- The tokens are in the books before the turn is over. -/
theorem booked_sampleCounted : ∃ w o obj info s,
    sampleMachine.run sampleStart sampleCounted = some (w, o) ∧ w.objects[0]? = some obj ∧
    GetRoute.info.show obj.sc.session = .info info ∧ info.statistics = some App.sampleStats ∧
    @MadeWith .asciiOnly App.sampleCodec App.sampleFactory App.sample App.sampleTree
      sampleCounted 0 s ∧
    ∀ p m, (info.statistics.getD ∅).entry p m = Contribution.sumStats
      ((s.usageStats.lifecycleTotalData.entry p m).toList ++
        Contribution.statsFor (contributions App.sample s 0 o) p m) := by
  obtain ⟨⟨w, o⟩, hrun, heval⟩ := Option.map_eq_some_iff.mp
    (show (sampleMachine.run sampleStart sampleCounted).map
      (fun r ↦ r.1.objects[0]?.map (·.sc.session.usageStats.lifecycleTotalData.orNone)) =
        some (some (some App.sampleStats)) by decide +kernel)
  obtain ⟨obj, hobj, hstatistics⟩ := Option.map_eq_some_iff.mp heval
  obtain ⟨s, hmade, hbooked⟩ := @booked_of_run .asciiOnly App.sampleCodec App.sampleFactory
    App.sample w o 0 obj App.sampleTree sampleCounted hrun atomicAccept_sampleCounted hobj
  exact ⟨w, o, obj, _, s, hrun, hobj, rfl, hstatistics, hmade, hbooked _ rfl⟩

end Server

/-! ## The final frames of a turn -/

/-- What a `DoneFrame` says, and of whom. -/
def StreamObs.done? : StreamObs → Option (String × String × ModelStats)
  | .sends (.done provider model tokensUsage _ _ tokensCost) =>
      some (provider, model, ⟨tokensUsage, tokensCost⟩)
  | _ => none

namespace StreamTask

theorem entry_of_mem_doneEntries {event : SessionCompletionDoneEvent} {p m : String}
    {stats : ModelStats} (h : (p, m, stats) ∈ doneEntries event) :
    (event.statistics.getD ∅).entry p m = some stats := by
  obtain ⟨⟨p', d⟩, hp, hm⟩ := List.mem_flatMap.mp h
  obtain ⟨⟨m', stats'⟩, hentry, heq⟩ := List.mem_map.mp hm
  cases heq
  rw [StatsData.entry, OrderedDict.get?_of_mem hp]
  exact OrderedDict.get?_of_mem hentry

/-- The statistics of the current call of a session are those of an event. -/
def Carries (s : Session) (event : SessionCompletionDoneEvent) : Prop :=
  event.statistics.getD ∅ = s.usageStats.currentInvocationData

/-- A task that passes on a final event passes on the statistics of the current call. -/
def Passes (s : Session) (phase : StreamPhase) : Prop :=
  ∀ event rest, phase = .sendingDone event rest →
    Carries s event ∧ ∀ entry ∈ rest, entry ∈ doneEntries event

/-- Every `DoneFrame` among what a task does says what is in the statistics of the current
call. -/
def Says (s : Session) (o : List StreamObs) : Prop :=
  ∀ ob ∈ o, ∀ p m stats, ob.done? = some (p, m, stats) →
    s.usageStats.currentInvocationData.entry p m = some stats

variable {s s' : Session}

theorem says_nil (s : Session) : Says s [] := List.forall_mem_nil _

theorem Says.cons {o : List StreamObs} {ob : StreamObs} (h : Says s o) (hob : ob.done? = none) :
    Says s (ob :: o) := by
  intro ob' hmem p m stats hdone
  rcases List.mem_cons.mp hmem with rfl | hmem
  · cases hob.symm.trans hdone
  · exact h ob' hmem p m stats hdone

/-- A task in any other phase has nothing to pass on. -/
theorem passes_of_ne {phase : StreamPhase} (h : ∀ event rest, phase ≠ .sendingDone event rest) :
    Passes s phase :=
  fun event rest heq ↦ absurd heq (h event rest)

theorem passes_of_isDone {task : StreamTask} (h : task.isDone = true) : Passes s task.phase := by
  refine passes_of_ne fun event rest heq ↦ ?_
  rw [isDone, heq] at h
  cases h

theorem says_onException (s : Session) (e : PyExc) :
    Passes s (onException e).1 ∧ Says s (onException e).2 := by
  cases e with
  | authenticationError message | anyLlmError message =>
      exact ⟨passes_of_ne fun event rest h ↦ (by cases h), (says_nil s).cons rfl⟩
  | _ => exact ⟨passes_of_ne fun event rest h ↦ (by cases h), says_nil s⟩

section

variable [SessionCodec] {a : SessionFileAdapter} {t t' : FileTree} {faults : List (Option Fault)}

theorem says_onReturn (s' : Session) :
    Passes s' (onReturn a t s faults).2.1 ∧ Says s' (onReturn a t s faults).2.2 := by
  rw [onReturn]
  split
  · exact ⟨passes_of_ne fun event rest h ↦ (by cases h), (says_nil s').cons rfl⟩
  · rename_i t e h
    obtain ⟨hpasses, hsays⟩ := says_onException s' e
    exact ⟨hpasses, hsays.cons rfl⟩

theorem says_sendDone {event : SessionCompletionDoneEvent} (hevent : Carries s event)
    {rest : List (String × String × ModelStats)}
    (hrest : ∀ entry ∈ rest, entry ∈ doneEntries event) :
    Passes s (sendDone a t s faults event rest).2.1 ∧
      Says s (sendDone a t s faults event rest).2.2 := by
  cases rest with
  | nil =>
      have hreturn : Passes s (onReturn a t s faults).2.1 ∧
          Says s (onReturn a t s faults).2.2 := says_onReturn s
      exact ⟨hreturn.1, hreturn.2.cons rfl⟩
  | cons entry rest =>
      obtain ⟨p, m, stats⟩ := entry
      rw [sendDone]
      split
      · rename_i frame hframe
        constructor
        · intro event' rest' heq
          cases heq
          exact ⟨hevent, fun entry hmem ↦ hrest entry (List.mem_cons_of_mem _ hmem)⟩
        · intro ob hmem p' m' stats' hdone
          cases ServerFrame.eq_of_doneFrame hframe
          cases List.mem_singleton.mp hmem
          cases hdone
          rw [← hevent]
          exact entry_of_mem_doneEntries (hrest (p, m, stats) List.mem_cons_self)
      · exact says_onException s _

theorem says_consume {phase : Option Session.Phase} {ob : Option Session.Obs}
    (hevent : ∀ event, ob = some (.yielded (.completionDone event)) → Carries s event) :
    Passes s (consume a t s faults phase ob).2.1 ∧
      Says s (consume a t s faults phase ob).2.2 := by
  cases phase with
  | none =>
      cases ob with
      | none => exact says_onReturn s
      | some ob =>
          cases ob with
          | raised e => exact says_onException s e
          | _ => exact says_onReturn s
  | some phase =>
      have hawaits : Passes s (.awaiting phase) ∧ Says s [] :=
        ⟨passes_of_ne fun event rest h ↦ (by cases h), says_nil s⟩
      cases ob with
      | none => exact hawaits
      | some ob =>
          cases ob with
          | yielded event =>
              cases event with
              | textChunk text =>
                  exact ⟨passes_of_ne fun event rest h ↦ (by cases h), (says_nil s).cons rfl⟩
              | completionDone event =>
                  exact says_sendDone (hevent event rfl) fun entry hmem ↦ hmem
          | _ => exact hawaits

variable [UnicodeData]

theorem says_advance {phase : Option Session.Phase} {i : Session.Input} {phase' : StreamPhase}
    {o : List StreamObs} (hs : advance a t s faults phase i = some ((t', s', phase'), o)) :
    Passes s' phase' ∧ Says s' o := by
  obtain ⟨⟨⟨s₁, p₁⟩, o₁⟩, hstep, heq⟩ := Option.map_eq_some_iff.mp hs
  cases heq
  have hconsume : Passes s' (consume a t s' faults p₁ o₁.getLast?).2.1 ∧
      Says s' (consume a t s' faults p₁ o₁.getLast?).2.2 := by
    refine says_consume fun event hlast ↦ ?_
    have hstats := ((Session.Step.of_step hstep).completionDone (List.mem_of_getLast? hlast)).2
    rw [Carries, hstats, StatsData.getD_orNone]
  exact ⟨hconsume.1, hconsume.2.cons rfl⟩

/-- **One step** of a task: it goes on to pass on the statistics of the current call, and says
them. -/
theorem Passes.step {task task' : StreamTask} {i : StreamInput} {o : List StreamObs}
    (h : Passes s task.phase) (hs : task.step a t s faults i = some ((t', s', task'), o)) :
    Passes s' task'.phase ∧ Says s' o := by
  have hone := Step.of_step hs
  generalize task.phase = phase at hone h
  generalize task'.phase = phase' at hone
  cases hone with
  | runs uuid4 hs => exact says_advance hs
  | resumes p i hs => exact says_advance hs
  | chunkSent p hs => exact says_advance hs
  | doneSent event rest =>
      obtain ⟨hevent, hrest⟩ := h event rest rfl
      exact says_sendDone hevent hrest
  | chunkFails p e => exact says_onException s e
  | doneFails event rest e => exact says_onException s e
  | ends phase result hphase hundone =>
      exact ⟨passes_of_ne fun event rest h ↦ (by cases h), says_nil s⟩

end

end StreamTask

namespace WsHandler

/-- The tasks of an object pass on the statistics of the current call. -/
def State.Passes (w : State) : Prop :=
  ∀ task ∈ w.tasks, StreamTask.Passes w.sc.session task.phase

theorem State.Passes.of_phases {w w' : State} (hw : w.Passes)
    (hsession : w'.sc.session = w.sc.session)
    (hphases : w'.tasks.map (·.phase) = w.tasks.map (·.phase)) : w'.Passes := by
  intro task' hmem
  have hphase : task'.phase ∈ w.tasks.map (·.phase) := hphases ▸ List.mem_map_of_mem hmem
  obtain ⟨task, htask, heq⟩ := List.mem_map.mp hphase
  rw [hsession, ← heq]
  exact hw task htask

variable [UnicodeData] [SessionCodec] {a : SessionFileAdapter} {w w' : State} {i : Input}
  {o : List Obs}

/-- **One step** of an object: its tasks go on to pass on the statistics of the current call, and
say them.  Only the unfinished task can change the session, and the others have nothing to say. -/
theorem Step.passes (hs : Step a w i w' o) (htracked : w.Tracked) (hw : w.Passes) :
    w'.Passes ∧ StreamTask.Says w'.sc.session (o.filterMap Obs.stream?) := by
  cases hs with
  | cancel h n hh busy =>
      exact ⟨hw.of_phases rfl (Chat.phases_cancelTask w n), StreamTask.says_nil _⟩
  | leaves h n phase hh hphase busy =>
      exact ⟨hw.of_phases rfl (Chat.phases_cancelTask w n), StreamTask.says_nil _⟩
  | sendMessage h content hh idle =>
      refine ⟨fun task hmem ↦ ?_, StreamTask.says_nil _⟩
      rcases List.mem_append.mp hmem with hmem | hmem
      · exact hw task hmem
      · cases List.mem_singleton.mp hmem
        exact StreamTask.passes_of_ne fun event rest h ↦ (by cases h)
  | stream n i faults task task' tree session o htask hstep =>
      have hundone := not_isDone_of_step hstep
      obtain ⟨hpasses, hsays⟩ := (hw task (List.mem_of_getElem? htask)).step hstep
      constructor
      · intro task₁ hmem
        obtain ⟨m, hm⟩ := List.mem_iff_getElem?.mp hmem
        rcases (List.getElem?_set_iff htask).mp hm with ⟨-, rfl⟩ | ⟨hne, hm⟩
        · exact hpasses
        · refine StreamTask.passes_of_isDone ?_
          by_contra hdone
          exact hne (htracked.atMostOne hm (Bool.eq_false_iff.mpr hdone) htask hundone)
      · rw [filterMap_stream?_map]
        exact hsays
  | _ => exact ⟨hw, StreamTask.says_nil _⟩

end WsHandler

namespace Server

/-- What the LLMs contributed to the latest call of an object, at the rates of a session. -/
def latest (app : App) (s : Session) (k : ℕ) (o : List Obs) : List Contribution :=
  Session.contributions (app.rates s) (Session.latestCall (o.flatMap (·.generated k)))

/-- The tasks of every object pass on the statistics of its current call. -/
def Passes (w : Server) : Prop :=
  ∀ (k : ℕ) (obj : Held), w.objects[k]? = some obj → (obj.onTree w.tree).Passes

section

variable [UnicodeData] [SessionCodec] [LlmPortFactory] {app : App} {w w' : Server} {o : List Obs}
  {k : ℕ}

theorem Passes.step {i : Input} (hw : w.Passes) (hs : Step app w i w' o) (horderly : w.Orderly) :
    w'.Passes := by
  intro k obj' hobj'
  cases hs.objects with
  | same h =>
      rw [h] at hobj'
      exact hw k obj' hobj'
  | fresh session h =>
      rw [h] at hobj'
      rcases List.getElem?_concat_iff.mp hobj' with hobj' | ⟨-, rfl⟩
      · exact hw k obj' hobj'
      · intro task hmem
        cases hmem
  | moved k₁ obj j c o hobj hstep h hj =>
      rw [h] at hobj'
      rcases (List.getElem?_set_iff hobj).mp hobj' with ⟨-, rfl⟩ | ⟨-, hobj'⟩
      · exact (hstep.passes (horderly.objects k₁ obj hobj).2 (hw k₁ obj hobj)).1
      · exact hw k obj' hobj'

theorem passes_of_run {t : FileTree} {is : List Input}
    (h : (machine app).run (.start t) is = some (w, o))
    (hatomic : (machine app).StepsMeet AtomicAccept (.start t) is) : w.Passes := by
  have hboth : w.Orderly ∧ w.Passes := by
    refine Mealy.run_induction_of_steps (P := fun _ w _ ↦ w.Orderly ∧ w.Passes)
      (Q := AtomicAccept) ⟨orderly_start t, ?_⟩ ?_ h hatomic
    · intro k obj hobj
      cases hobj
    · rintro _ w _ i w' o' ⟨horderly, hpasses⟩ hi hs
      exact ⟨horderly.step (.of_step hs) hi, hpasses.step (.of_step hs) horderly⟩
  exact hboth.2

/-- **What a client is told.**  In every run in which `accept()` does not suspend, whatever was
completed, failed or cancelled before, a `DoneFrame` of a stream carries exactly the tokens that
the LLMs reported, for the provider and model it names, in the turn it ends, and their cost at
the rates of the session. -/
theorem told_of_run {t : FileTree} {is : List Input} {i : Input} {o' : List Obs} {n : ℕ}
    {provider model : String} {tokensUsage : TokensUsage} {stopReason : StopReason}
    {elapsedS : ℕ} {tokensCost : Option TokensCost}
    (h : (machine app).run (.start t) is = some (w, o))
    (hatomic : (machine app).StepsMeet AtomicAccept (.start t) is)
    (hs : step app w i = some (w', o'))
    (hsent : .object k (.stream n (.sends
      (.done provider model tokensUsage stopReason elapsedS tokensCost))) ∈ o') :
    ∃ s, MadeWith app t is k s ∧ Contribution.total (latest app s k (o ++ o')) provider model =
      some ⟨tokensUsage, tokensCost⟩ := by
  have hone := Step.of_step hs
  have horderly := orderly_of_run h hatomic
  obtain ⟨j, obj, c, o₁, hobj, hstep, hobj', hmem⟩ := hone.object_obs hsent
  -- the task says what is in the statistics of the current call
  obtain ⟨-, hsays⟩ := hstep.passes (horderly.objects k obj hobj).2
    (passes_of_run h hatomic k obj hobj)
  have hcurrent := hsays _ (List.mem_filterMap.mpr ⟨_, hmem, rfl⟩) provider model
    ⟨tokensUsage, tokensCost⟩ rfl
  -- and they are what the latest call of the session has received
  obtain ⟨s, hmade, hcalls⟩ := calls_of_run h hatomic hobj
  obtain ⟨obj', hobj₁, hcalls'⟩ := hone.calls horderly (leavable_of_run h) hobj
  obtain rfl := Option.some.inj (hobj'.symm.trans hobj₁)
  obtain ⟨id, hbuilt⟩ := hmade.1.built
  have hbooked := (hcalls.trans hcalls').booked hbuilt.wired hmade.1.current
  rw [← List.flatMap_append] at hbooked
  have hlatest : c.sc.session.usageStats.currentInvocation = _ := hbooked.current
  refine ⟨s, hmade, ?_⟩
  rw [← hcurrent, SessionUsageStats.currentInvocationData, hlatest]
  exact (UsageStatsAccumulator.entry_addAll_empty _ provider model).symm

end

/-- The answer of the LLM is over. -/
def sampleEnd : Input := .object 0 (.stream 0 (.resumes (.mainEnds (.ofNat 2) 0)) [])

/-- The client is told of the tokens of the one call. -/
theorem told_sampleCounted : ∃ w o w' o' s,
    sampleMachine.run sampleStart sampleCounted = some (w, o) ∧
    sampleMachine.step w sampleEnd = some (w', o') ∧
    .object 0 (.stream 0 (.sends
      (.done "p" "m" ⟨1, 2⟩ .stop 0 (some ⟨1 / 2, 2, 5 / 2⟩)))) ∈ o' ∧
    @MadeWith .asciiOnly App.sampleCodec App.sampleFactory App.sample App.sampleTree
      sampleCounted 0 s ∧
    Contribution.total (latest App.sample s 0 (o ++ o')) "p" "m" =
      some ⟨⟨1, 2⟩, some ⟨1 / 2, 2, 5 / 2⟩⟩ := by
  obtain ⟨⟨w, o⟩, hrun, heval⟩ := Option.map_eq_some_iff.mp
    (show (sampleMachine.run sampleStart sampleCounted).map
        (fun r ↦ (sampleMachine.step r.1 sampleEnd).map (·.2.getLast?)) =
      some (some (some (.object 0 (.stream 0 (.sends
        (.done "p" "m" ⟨1, 2⟩ .stop 0 (some ⟨1 / 2, 2, 5 / 2⟩))))))) by decide +kernel)
  obtain ⟨⟨w', o'⟩, hs, hlast⟩ := Option.map_eq_some_iff.mp heval
  have hsent := List.mem_of_getLast? hlast
  obtain ⟨s, hmade, htold⟩ := @told_of_run .asciiOnly App.sampleCodec App.sampleFactory
    App.sample w w' o 0 App.sampleTree sampleCounted sampleEnd o' 0 "p" "m" ⟨1, 2⟩ .stop 0
    (some ⟨1 / 2, 2, 5 / 2⟩) hrun atomicAccept_sampleCounted hs hsent
  exact ⟨w, o, w', o', s, hrun, hs, hsent, hmade, htold⟩

end Server
