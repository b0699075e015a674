import ChatServer.Conversation.Reload
import ChatServer.Storage.ConfigCycle
import ChatServer.Web.Separation
import ChatServer.Web.Sockets
import ChatServer.Web.Stored

/-!
# The server is started again

With its process the server loses the registry, and with it every session that is held in
memory; the store stays.  A session that is asked for afterwards is loaded, and so it is what
it was when it was saved last, whatever has happened to other sessions since
(`ChatServer.Web.Separation`).

`Service` is the server over one store whose process may end between any two steps.  In a run
of it the store holds what was saved last of a session, and what the registry holds of it goes
on from there (`Service.Durable`).
-/

open FileTree

/-! ## The files of a configuration that is stored -/

theorem eq_of_mem_truthyText {s f : String} (h : f ∈ truthyText (some s)) : f = s := by
  rw [truthyText] at h
  split at h
  · exact (Option.some.inj h).symm
  · cases h

namespace CompletionConfig

variable [ConfigCodec] {c c' : CompletionConfig}

theorem InsidePaths.serialized (h : c.InsidePaths) : (serializedConfig c).InsidePaths := by
  have hoption {p : Option String} (hp : ∀ f ∈ truthyText p, Inside f) (file : String)
      (hfile : Inside file) : ∀ f ∈ truthyText (some file), Inside f := by
    intro f hf
    rw [eq_of_mem_truthyText hf]
    exact hfile
  constructor
  · rw [serializedConfig]
    cases truthyText c.systemPrompt with
    | none =>
        cases c.outputConfig with
        | none | some model => exact h.systemPrompt
    | some prompt =>
        cases c.outputConfig with
        | none | some model => exact hoption h.systemPrompt _ (inside_systemPromptFile h prompt)
  · rw [serializedConfig]
    cases c.outputConfig with
    | none =>
        cases truthyText c.systemPrompt with
        | none | some prompt => exact h.outputConfig
    | some model => exact hoption h.outputConfig _ (inside_outputConfigFile h model.schemaStr)

/-- The files of a configuration whose prompt has a name of its own lie in its directory. -/
theorem Named.insidePaths {P : Set String} (h : c.Named P) : c.InsidePaths := by
  constructor
  · intro f hf
    cases hprompt : truthyText c.systemPrompt with
    | none =>
        rw [h.noPrompt hprompt] at hf
        cases hf
    | some p =>
        have hfile : systemPromptFile c p = f := by
          rw [systemPromptFile, Option.mem_def.mp hf, Option.getD_some]
        rw [← hfile]
        exact (h.plainName hprompt).inside
  · rw [h.outputConfigPath]
    intro f hf
    cases hf

end CompletionConfig

/-! ## What the store holds of a session -/

namespace Session

variable [ConfigCodec]

/-- Both configurations have prompts with names of their own. -/
def Named (P : Set String) (s : Session) : Prop :=
  s.completionConfig.Named P ∧ s.messageContextStrategy.completionConfig.Named P

/-- A session at a later time, as far as the routes show it: its configuration is the same once
it is loaded. -/
structure Later (s s' : Session) : Prop where
  id : s'.id = s.id
  createdAt : s'.createdAt = s.createdAt
  completionConfig : s'.completionConfig.reloaded = s.completionConfig.reloaded
  messages : s.messages <+: s'.messages
  promptTokens : ∀ p m, (s.usageStats.lifecycleTotalData.usage p m).promptTokens ≤
    (s'.usageStats.lifecycleTotalData.usage p m).promptTokens
  completionTokens : ∀ p m, (s.usageStats.lifecycleTotalData.usage p m).completionTokens ≤
    (s'.usageStats.lifecycleTotalData.usage p m).completionTokens
  cost : ∀ p m cost, s.usageStats.lifecycleTotalData.cost p m = some cost →
    ∃ added, s'.usageStats.lifecycleTotalData.cost p m = some (cost + added)

/-- A session as it comes back from the store: its configurations have the names of their files
by then, and prompts with uniform line ends. -/
structure Restored (s s' : Session) : Prop where
  id : s'.id = s.id
  createdAt : s'.createdAt = s.createdAt
  completionConfig : s'.completionConfig = s.completionConfig.reloaded
  strategyConfig : s'.messageContextStrategy.completionConfig =
    s.messageContextStrategy.completionConfig.reloaded
  messages : s'.messages = s.messages
  strategyType : s'.messageContextStrategy.strategyType = s.messageContextStrategy.strategyType
  metadata : s'.messageContextStrategy.getMetadata = s.messageContextStrategy.getMetadata
  lifecycle : s'.usageStats.lifecycleTotalData = s.usageStats.lifecycleTotalData

variable {P : Set String} {s s' s'' : Session}

theorem Later.of_grown (h : Grown s s') : Later s s' where
  id := h.id
  createdAt := h.createdAt
  completionConfig := congrArg CompletionConfig.reloaded h.completionConfig
  messages := h.messages
  promptTokens := h.promptTokens
  completionTokens := h.completionTokens
  cost := h.cost

theorem Later.refl (s : Session) : Later s s := .of_grown (.refl s)

theorem Later.trans (h : Later s s') (h' : Later s' s'') : Later s s'' where
  id := h'.id.trans h.id
  createdAt := h'.createdAt.trans h.createdAt
  completionConfig := h'.completionConfig.trans h.completionConfig
  messages := h.messages.trans h'.messages
  promptTokens p m := (h.promptTokens p m).trans (h'.promptTokens p m)
  completionTokens p m := (h.completionTokens p m).trans (h'.completionTokens p m)
  cost p m cost hcost := by
    obtain ⟨added, hadded⟩ := h.cost p m cost hcost
    obtain ⟨added', hadded'⟩ := h'.cost p m _ hadded
    exact ⟨added + added', by rwa [← add_assoc]⟩

theorem Restored.later (h : Restored s s') : Later s s' where
  id := h.id
  createdAt := h.createdAt
  completionConfig := by rw [h.completionConfig, CompletionConfig.reloaded_reloaded]
  messages := by rw [h.messages]
  promptTokens p m := by rw [h.lifecycle]
  completionTokens p m := by rw [h.lifecycle]
  cost p m cost hcost := ⟨0, by rwa [add_zero, h.lifecycle]⟩

theorem Restored.named (h : Restored s s') (hs : s.Named P) : s'.Named P := by
  rw [Named, h.completionConfig, h.strategyConfig]
  exact ⟨hs.1.reloaded, hs.2.reloaded⟩

theorem Advances.named [UnicodeData] (h : s.Advances s') (hs : s.Named P) : s'.Named P := by
  rw [Named, h.configs.1, h.configs.2]
  exact hs

end Session

namespace SessionFileAdapter

variable [SessionCodec] {a : SessionFileAdapter} {t t' : FileTree} {s : Session}

/-- The store holds the session, in files of its own directory. -/
structure Stores (a : SessionFileAdapter) (t : FileTree) (s : Session) : Prop where
  reads : ∃ hid, a.getSession t s.id = .ok (stateOf s hid s.completionConfig.reloaded
    s.messageContextStrategy.completionConfig.reloaded)
  inside : a.StoredInside t s.id

/-- What was written is held. -/
theorem Stores.of_written {P : Set String} (hP : Set.InjOn promptFile P) (hid : PlainName s.id)
    (hnamed : s.Named P) (hround : RoundTrips s) (h : a.Written t s) : a.Stores t s := by
  constructor
  · exact getSession_of_named hP hnamed.1 hnamed.2 hround h
  · obtain ⟨hne, hinfo, -⟩ := Holds.of_written h
    rw [(plain_sessionDir (a := a) hid).1] at hinfo
    intro content raw hread hload
    cases hinfo.symm.trans hread
    cases (hround.info hne).symm.trans hload
    refine ⟨hnamed.1.insidePaths.serialized, fun strategy hstrategy ↦ ?_⟩
    cases hstrategy
    exact hnamed.2.insidePaths.serialized

/-- Only what happens on the way to its directory or inside it matters. -/
theorem Stores.congr (hid : PlainName s.id) (h : a.Stores t s)
    (hsame : ∀ q, a.path ++ [s.id] <+: q ∨ q <+: a.path ++ [s.id] → t'.node? q = t.node? q) :
    a.Stores t' s := by
  constructor
  · rw [getSession_congr hid h.inside hsame]
    exact h.reads
  · intro content raw hread
    have hplain : Plain (a.path ++ [s.id] ++ [sessionInfo]) :=
      (plain_sessionDir hid).2.append (by decide)
    rw [read_congr hplain fun q hq ↦ hsame q (List.prefix_or_prefix_of_prefix
      (List.prefix_append _ _) hq)] at hread
    exact h.inside content raw hread

/-- A session that is held has its directory. -/
theorem Stores.pathExists (h : a.Stores t s) : t.pathExists (a.sessionDir s.id) = true := by
  obtain ⟨hid, hget⟩ := h.reads
  obtain ⟨raw, hraw, -⟩ := Py.bind_eq_ok.mp hget
  have hread : ∃ content, t.read (a.sessionDir s.id ++ [sessionInfo]) = .ok content := by
    unfold readFile at hraw
    split at hraw
    · rename_i content hcontent
      exact ⟨content, hcontent⟩
    all_goals cases hraw
  obtain ⟨content, hread⟩ := hread
  unfold FileTree.read at hread
  split at hread
  · cases hread
  · rename_i q hq
    obtain ⟨d, hd, hdir, -⟩ := (walk_concat_iff (show sessionInfo ≠ ".." by decide)).mp hq
    exact pathExists_of_node hd hdir

end SessionFileAdapter

namespace App

variable [LlmPortFactory] [SessionCodec] {app : App} {t : FileTree} {s s' : Session}
  {ref : StatsRef} {P : Set String}

/-- What is loaded is what is held. -/
theorem restored_of_getSession (h : app.repository.Stores t s)
    (hget : app.getSession t s.id ref = .ok s') : s.Restored s' := by
  obtain ⟨hid, hstate⟩ := h.reads
  obtain ⟨state, hstate', hrestore⟩ := Py.bind_eq_ok.mp hget
  cases hstate.symm.trans hstate'
  obtain ⟨llm, -, hrestore⟩ := Py.bind_eq_ok.mp hrestore
  obtain ⟨strategyLlm, -, hrestore⟩ := Py.bind_eq_ok.mp hrestore
  obtain ⟨strategy, hbuild, hrestore⟩ := Py.bind_eq_ok.mp hrestore
  have hstrategy := (MessageContextStrategyFactory.build_getMetadata s.messageContextStrategy _ _
    s.messages).symm.trans hbuild
  cases hstrategy
  cases hrestore
  refine ⟨rfl, rfl, rfl, ?_, ?_, ?_, getMetadata_withBase _ _, StatsData.getD_orNone _⟩
  · rw [Session.init, MessageContextStrategy.completionConfig, MessageContextStrategy.base_withBase]
    rfl
  · rw [Session.messages, MessageContextStrategy.getHistory, Session.init,
      MessageContextStrategy.base_withBase]
  · rw [Session.init]
    cases s.messageContextStrategy <;> rfl

/-- Where there are adapters for all providers, what is held is loaded. -/
theorem exists_getSession (hports : ∀ c, ∃ llm, LlmPortFactory.create s.id c = .ok llm)
    (h : app.repository.Stores t s) (ref : StatsRef) :
    ∃ s', app.getSession t s.id ref = .ok s' := by
  obtain ⟨hid, hstate⟩ := h.reads
  obtain ⟨llm, hllm⟩ := hports s.completionConfig.reloaded
  obtain ⟨strategyLlm, hstrategyLlm⟩ :=
    hports s.messageContextStrategy.completionConfig.reloaded
  let c := s.completionConfig.reloaded
  let c' := s.messageContextStrategy.completionConfig.reloaded
  let base : StrategyBase :=
    ⟨.decorated (.port strategyLlm) ref (app.modelBillingFactory.create c'.provider c'.model), c',
      s.messages⟩
  refine ⟨.init (.port llm) s.id s.createdAt c (app.modelBillingFactory.create c.provider c.model)
    ref (.init s.usageStats.lifecycleTotalData.orNone) (s.messageContextStrategy.withBase base), ?_⟩
  simp only [getSession, restoreSession, hstate, SessionFileAdapter.stateOf, hllm, hstrategyLlm,
    MessageContextStrategyFactory.build_getMetadata, bind, Except.bind]
  rfl

end App

/-! ## What the trace of a step tells of the store -/

/-- The session that was saved. -/
def StreamObs.saved? : StreamObs → Option Session
  | saved s => some s
  | _ => none

/-- A step that leaves a tree and a session: it does not write, it saves the session, or it
tells of a failure. -/
inductive Writes [SessionCodec] (a : SessionFileAdapter) (t t' : FileTree) (s : Session)
    (o : List StreamObs) : Prop where
  | nothing (tree : t' = t) (silent : o.filterMap StreamObs.saved? = [])
  | saves (written : a.Written t' s) (told : o.filterMap StreamObs.saved? = [s])
  | fails (silent : o.filterMap StreamObs.saved? = []) (e : PyExc) (told : .saveFailed e ∈ o)

theorem Writes.advanced [SessionCodec] {a : SessionFileAdapter} {t t' : FileTree} {s : Session}
    {o : List StreamObs} (h : Writes a t t' s o) (o' : List Session.Obs) :
    Writes a t t' s (.advanced o' :: o) := by
  cases h with
  | nothing tree silent => exact .nothing tree silent
  | saves written told => exact .saves written told
  | fails silent e told => exact .fails silent e (List.mem_cons_of_mem _ told)

namespace StreamTask

theorem saved?_onException (e : PyExc) : (onException e).2.filterMap StreamObs.saved? = [] := by
  cases e <;> rfl

section

variable [SessionCodec] {a : SessionFileAdapter} {t t' : FileTree} {s s' : Session}
  {faults : List (Option Fault)}

theorem writes_onReturn : Writes a t (onReturn a t s faults).1 s (onReturn a t s faults).2.2 := by
  rw [onReturn]
  split
  · rename_i t' hupdate
    exact .saves (.of_updateSession hupdate) rfl
  · rename_i t' e hupdate
    exact .fails (saved?_onException e) e List.mem_cons_self

theorem writes_sendDone (event : SessionCompletionDoneEvent)
    (rest : List (String × String × ModelStats)) :
    Writes a t (sendDone a t s faults event rest).1 s (sendDone a t s faults event rest).2.2 := by
  cases rest with
  | nil => exact writes_onReturn.advanced _
  | cons entry rest =>
      rw [sendDone]
      split
      · exact .nothing rfl rfl
      · exact .nothing rfl (saved?_onException _)

theorem writes_consume (phase : Option Session.Phase) (ob : Option Session.Obs) :
    Writes a t (consume a t s faults phase ob).1 s (consume a t s faults phase ob).2.2 := by
  unfold consume
  split
  · exact .nothing rfl rfl
  · exact writes_sendDone _ _
  · exact .nothing rfl rfl
  · exact .nothing rfl (saved?_onException _)
  · exact writes_onReturn

variable [UnicodeData]

theorem writes_advance {phase : Option Session.Phase} {i : Session.Input} {phase' : StreamPhase}
    {o : List StreamObs} (hs : advance a t s faults phase i = some ((t', s', phase'), o)) :
    Writes a t t' s' o := by
  obtain ⟨⟨⟨s₁, p₁⟩, o₁⟩, -, heq⟩ := Option.map_eq_some_iff.mp hs
  cases heq
  exact (writes_consume p₁ o₁.getLast?).advanced o₁

theorem writes_stepPhase {content : String} {phase phase' : StreamPhase} {i : StreamInput}
    {o : List StreamObs}
    (hs : stepPhase a t s faults content phase i = some ((t', s', phase'), o)) :
    Writes a t t' s' o := by
  cases phase with
  | created =>
      cases i with
      | runs uuid4 => exact writes_advance hs
      | _ => cases hs
  | awaiting phase =>
      cases i with
      | resumes i => exact writes_advance hs
      | _ => cases hs
  | sendingChunk phase =>
      cases i with
      | sent => exact writes_advance hs
      | sendFails e =>
          cases hs
          exact .nothing rfl (saved?_onException e)
      | _ => cases hs
  | sendingDone event rest =>
      cases i with
      | sent =>
          cases hs
          exact writes_sendDone event rest
      | sendFails e =>
          cases hs
          exact .nothing rfl (saved?_onException e)
      | _ => cases hs
  | sendingError =>
      cases i with
      | sent | sendFails e =>
          cases hs
          exact .nothing rfl rfl
      | _ => cases hs
  | finished result => cases i <;> cases hs

theorem writes_step {task task' : StreamTask} {i : StreamInput} {o : List StreamObs}
    (hs : step a t s faults task i = some ((t', s', task'), o)) : Writes a t t' s' o := by
  obtain ⟨⟨⟨t₁, s₁, phase⟩, o₁⟩, hnext, heq⟩ := Option.map_eq_some_iff.mp hs
  cases heq
  split at hnext
  · split at hnext
    · unfold stepCancelled at hnext
      split at hnext
      · exact writes_advance hnext
      · cases hnext
        exact .nothing rfl rfl
      · cases hnext
        exact .nothing rfl rfl
      · cases hnext
        exact .nothing rfl rfl
      · cases hnext
        exact .nothing rfl rfl
      · cases hnext
    · cases hnext
  · exact writes_stepPhase hnext

end

end StreamTask

/-- So do the handlers and tasks of an object. -/
theorem WsHandler.Step.writes [UnicodeData] [SessionCodec] {a : SessionFileAdapter}
    {w w' : WsHandler.State} {i : WsHandler.Input} {o : List WsHandler.Obs}
    (hs : WsHandler.Step a w i w' o) :
    Writes a w.tree w'.tree w'.sc.session (o.filterMap WsHandler.Obs.stream?) := by
  cases hs with
  | stream n i faults task task' tree session o htask hstep =>
      rw [filterMap_stream?_map]
      exact StreamTask.writes_step hstep
  | _ => exact .nothing rfl rfl

namespace Server

/-- The part of a trace that is about stream tasks. -/
def Obs.stream? : Obs → Option StreamObs
  | object _ ob => ob.stream?
  | _ => none

/-- `update_session` raised. -/
def Obs.SaveFailed : Obs → Bool
  | .object _ (.stream _ (.saveFailed _)) => true
  | _ => false

/-- The session `x` as it was saved, each time. -/
def saves (x : String) (o : List Obs) : List Session :=
  ((o.filterMap Obs.stream?).filterMap StreamObs.saved?).filter (·.id = x)

/-- The session `x` as it was saved last, when it was `s` before. -/
def lastSaved (x : String) (s : Session) (o : List Obs) : Session :=
  (saves x o).getLast?.getD s

/-- The input is for the session `x`, and is no deletion. -/
def Input.IsFor (x : String) (w : Server) : Input → Prop
  | .post id | .get id _ | .connect id => id = x
  | .creates r _ _ _ | .loads r _ | .resumes r => (w.requests[r]?.bind RequestPhase.id?) = some x
  | .object k _ => w.sessions.get? x = some k
  | .list | .delete _ _ | .closed _ _ | .accepted _ | .acceptFails _ => False

section

variable [UnicodeData] [SessionCodec] [LlmPortFactory] {app : App} {w w' : Server} {i : Input}
  {o : List Obs} {P : Set String} {x : String} {s : Session} {k : ℕ}

/-- The tasks of an object are heard of in its own steps only. -/
theorem Step.stream_cases (hs : Step app w i w' o) :
    (∀ k j, i ≠ .object k j) ∧ o.filterMap Obs.stream? = [] ∨
      ∃ k j obj c o', i = .object k j ∧ w.objects[k]? = some obj ∧
        WsHandler.Step app.repository (obj.onTree w.tree) j c o' ∧ w' = w.setObject k c ∧
          o = o'.map (.object k) := by
  cases hs with
  | object k j obj c o' hj hobj hstep => exact Or.inr ⟨k, j, obj, c, o', rfl, hobj, hstep, rfl, rfl⟩
  | delete id fault | closedDelete r id fault hr =>
      refine Or.inl ⟨fun _ _ ↦ Input.noConfusion, ?_⟩
      unfold deleteReply
      split <;> rfl
  | creates r id now ref faults tree session o hr hcreate ho =>
      refine Or.inl ⟨fun _ _ ↦ Input.noConfusion, ?_⟩
      rw [ho]
      split <;> rfl
  | createsFails r id now ref faults tree e o ob hr hcreate ho hob =>
      refine Or.inl ⟨fun _ _ ↦ Input.noConfusion, ?_⟩
      rw [List.filterMap_append, ho]
      rcases hob with ⟨message, -, rfl⟩ | rfl | rfl
      all_goals split <;> rfl
  | loadFails r id loader ref e hr hget =>
      refine Or.inl ⟨fun _ _ ↦ Input.noConfusion, ?_⟩
      cases e with
      | storageError message original => cases loader <;> rfl
      | raised e => cases e <;> cases loader <;> rfl
  | _ => exact Or.inl ⟨fun _ _ ↦ Input.noConfusion, rfl⟩

omit [UnicodeData] [SessionCodec] [LlmPortFactory] in
theorem filterMap_stream?_object (k : ℕ) (o : List WsHandler.Obs) :
    (o.map (.object k)).filterMap Obs.stream? = o.filterMap WsHandler.Obs.stream? := by
  rw [List.filterMap_map]
  rfl

omit [UnicodeData] [SessionCodec] [LlmPortFactory] in
theorem saves_of_silent (h : o.filterMap Obs.stream? = []) : saves x o = [] := by
  rw [saves, h]
  rfl

/-- What happens for others saves nothing of a session. -/
theorem Apart.saves (hi : Apart x w i) (hs : Step app w i w' o) : saves x o = [] := by
  rcases hs.stream_cases with ⟨-, hsilent⟩ | ⟨k, j, obj, c, o', rfl, hobj, hstep, -, rfl⟩
  · exact saves_of_silent hsilent
  · rw [Server.saves, filterMap_stream?_object]
    have hne : c.sc.session.id ≠ x := by
      rw [hstep.session_id]
      exact (hi.object hobj).1.2
    cases hstep.writes with
    | nothing tree silent | fails silent e told =>
        rw [silent]
        rfl
    | saves written told =>
        rw [told]
        exact List.filter_eq_nil_iff.mpr fun s hs ↦ by
          rw [List.mem_singleton.mp hs]
          exact fun h ↦ hne (of_decide_eq_true h)

/-! ## The store and the registry -/

/-- The store holds the session as it was saved last, and what the registry holds of it goes on
from there. -/
structure Durable (app : App) (P : Set String) (x : String) (s : Session) (w : Server) :
    Prop where
  id : s.id = x
  named : s.Named P
  coherent : w.Coherent
  stores : app.repository.Stores w.tree s
  held : ∀ k, w.Refers x k → ∃ obj, w.objects[k]? = some obj ∧ s.Later obj.sc.session ∧
    obj.sc.session.Named P

omit [UnicodeData] [LlmPortFactory] in
/-- With the process the registry is lost. -/
theorem Durable.restarts (hw : Durable app P x s w) : Durable app P x s (.start w.tree) := by
  refine ⟨hw.id, hw.named, coherent_start w.tree, hw.stores, ?_⟩
  rintro k (hget | ⟨r, phase, hat, -⟩)
  · cases hget
  · cases hat

omit [UnicodeData] in
/-- A session that is held is not made again. -/
theorem Durable.not_creates (hw : Durable app P x s w) {now : Datetime} {ref : StatsRef}
    {faults : List (Option Fault)} {tree : FileTree} {session : Session} :
    app.createSession w.tree x now ref faults ≠ (tree, .ok session) := by
  intro hcreate
  have hexists := hw.stores.pathExists
  rw [hw.id] at hexists
  cases hexists.symm.trans (App.isDir_of_createSession hcreate).2.1

/-- What happens for the session, but the steps of its object, leaves the store alone. -/
theorem Durable.tree (hw : Durable app P x s w) (hs : Step app w i w' o) (hi : i.IsFor x w)
    (hobject : ∀ k j, i ≠ .object k j) : w'.tree = w.tree := by
  have hid : ∀ {r : ℕ} {id : String} {phase : RequestPhase}, w.At r phase →
      phase.id? = some id → (w.requests[r]?.bind RequestPhase.id?) = some x → id = x := by
    intro r id phase hat hid hfor
    rw [show w.requests[r]? = some phase from hat, Option.bind_some, hid] at hfor
    exact Option.some.inj hfor
  cases hs with
  | delete id fault => exact hi.elim
  | closedDelete r id fault hr => exact hi.elim
  | creates r id now ref faults tree session o hr hcreate ho =>
      obtain rfl := hid hr rfl hi
      exact absurd hcreate hw.not_creates
  | createsFails r id now ref faults tree e o ob hr hcreate ho hob =>
      obtain rfl := hid hr rfl hi
      have hexists := hw.stores.pathExists
      rw [hw.id] at hexists
      exact App.createSession_fails hexists hcreate
  | loadFails r id loader ref e hr hget => exact tree_onLoadFails w r e loader
  | connectHeld id k obj held hobj => exact (WsHandler.frame_connect (obj.onTree w.tree)).tree
  | resumesConnect r id k obj hr hobj => exact (WsHandler.frame_connect (obj.onTree w.tree)).tree
  | object k j obj c o' hj hobj hstep => exact absurd rfl (hobject k j)
  | _ => rfl

/-- What is held of the session after a step goes on from where the store was. -/
theorem Durable.refers (hw : Durable app P x s w) (hs : Step app w i w' o) (h : w'.Refers x k) :
    ∃ obj, w'.objects[k]? = some obj ∧ s.Later obj.sc.session ∧ obj.sc.session.Named P := by
  rcases hs.refers h with hold | ⟨rfl, phase, hbrings⟩
  · obtain ⟨obj, hobj, hlater, hnamed⟩ := hw.held k hold
    obtain ⟨obj', hobj', rfl | ⟨j, c, o', hstep, rfl⟩⟩ := hs.object_moves hobj
    · exact ⟨obj', hobj', hlater, hnamed⟩
    · exact ⟨.of c, hobj', hlater.trans (.of_grown hstep.grown), hstep.advances.named hnamed⟩
  · cases hbrings with
    | creates r now ref faults tree session hr hcreate => exact absurd hcreate hw.not_creates
    | loads r loader ref session hr hget =>
        cases hs with
        | loads _ id' loader' _ session' hr' hget' =>
            cases Option.some.inj (hr.symm.trans hr')
            obtain rfl := hw.id
            have hrestored := App.restored_of_getSession hw.stores hget'
            exact ⟨.fresh session', List.getElem?_concat_iff.mpr (Or.inr ⟨rfl, rfl⟩),
              hrestored.later, hrestored.named hw.named⟩
        | loadFails _ id' loader' _ e hr' hget' =>
            cases Option.some.inj (hr.symm.trans hr')
            rw [hget] at hget'
            cases hget'

/-- A step is for other sessions, or it is for the session, and saves it if it tries to. -/
structure Proper (app : App) (x : String) (w : Server) (i : Input) : Prop where
  atomic : w.AtomicExecute i
  whose : Apart x w i ∨ i.IsFor x w
  saves : i.IsFor x w → ∀ r ∈ Server.step app w i, ∀ ob ∈ r.2, ob.SaveFailed = false

/-- **One step** of the server. -/
theorem Durable.step (hP : Set.InjOn promptFile P) (hx : PlainName x) (hw : Durable app P x s w)
    (hs : Server.step app w i = some (w', o)) (hi : Proper app x w i)
    (hsaved : ∀ s' ∈ saves x o, SessionFileAdapter.RoundTrips s') :
    Durable app P x (lastSaved x s o) w' ∧ s.Later (lastSaved x s o) ∧
      ∀ s' ∈ saves x o, s'.Later (lastSaved x s o) := by
  have hstep := Step.of_step hs
  have hcoherent : w'.Coherent := hw.coherent.step hs hi.atomic
  -- a step that saves nothing and leaves the files of the session alone
  have hsilent : saves x o = [] → app.repository.Stores w'.tree s →
      Durable app P x (lastSaved x s o) w' ∧ s.Later (lastSaved x s o) ∧
        ∀ s' ∈ saves x o, s'.Later (lastSaved x s o) := by
    intro hnone hstores
    rw [lastSaved, hnone]
    exact ⟨⟨hw.id, hw.named, hcoherent, hstores, fun k hk ↦ hw.refers hstep hk⟩, .refl s,
      List.forall_mem_nil _⟩
  have hid : PlainName s.id := hw.id ▸ hx
  rcases hi.whose with hapart | hfor
  · refine hsilent (hapart.saves hstep) (hw.stores.congr hid fun q hq ↦ ?_)
    rw [hw.id] at hq
    exact hapart.node? hstep hq
  · rcases hstep.stream_cases with ⟨hobject, hnone⟩ | ⟨k, j, obj, c, o', rfl, hobj, hown, rfl, rfl⟩
    · refine hsilent (saves_of_silent hnone) ?_
      rw [hw.tree hstep hfor hobject]
      exact hw.stores
    · obtain ⟨obj₁, hobj₁, hlater, hnamed⟩ := hw.held k (Or.inl hfor)
      obtain rfl := Option.some.inj (hobj.symm.trans hobj₁)
      cases hown.writes with
      | nothing tree silent =>
          apply hsilent
          · rw [Server.saves, filterMap_stream?_object, silent]
            rfl
          · rw [show (w.setObject k c).tree = w.tree from tree]
            exact hw.stores
      | saves written told =>
          have hlater' : s.Later c.sc.session := hlater.trans (.of_grown hown.grown)
          have hone : saves x (o'.map (.object k)) = [c.sc.session] := by
            rw [Server.saves, filterMap_stream?_object, told, List.filter_singleton,
              decide_eq_true (hlater'.id.trans hw.id)]
            rfl
          have hround := hsaved c.sc.session (hone ▸ List.mem_singleton_self _)
          have hnamed' := hown.advances.named hnamed
          rw [lastSaved, hone]
          refine ⟨⟨hlater'.id.trans hw.id, hnamed', hcoherent, ?_, ?_⟩, hlater', fun s' hs' ↦ ?_⟩
          · exact .of_written hP (hlater'.id ▸ hid) hnamed' hround written
          · -- nobody else refers to the session
            intro k' hk'
            obtain rfl : k' = k := by
              rcases hstep.refers hk' with (hget | hpending) | ⟨-, phase, hbrings⟩
              · exact Option.some.inj (hget.symm.trans hfor)
              · obtain ⟨r, phase, hat, hphase⟩ := hpending
                obtain ⟨hexecuting, hname⟩ := RequestPhase.executing_of_object? hphase
                cases (hw.coherent.unregistered r phase x hat hexecuting hname).symm.trans hfor
              · cases hbrings
            exact ⟨.of c, (List.getElem?_set_iff hobj).mpr (Or.inl ⟨rfl, rfl⟩), .refl _, hnamed'⟩
          · rw [List.mem_singleton.mp hs']
            exact .refl _
      | fails silent e told =>
          obtain ⟨ob, hob, heq⟩ := List.mem_filterMap.mp told
          have hnot := hi.saves hfor _ hs _ (List.mem_map_of_mem hob)
          cases ob with
          | stream n ob =>
              cases heq
              cases hnot
          | _ => cases heq

/-- Who asks for the session is shown it, at once or after it was loaded. -/
theorem Durable.answers (hports : ∀ c, ∃ llm, LlmPortFactory.create x c = .ok llm)
    (hw : Durable app P x s w) (route : GetRoute) (ref : StatsRef) :
    ∃ js ∈ [[.get x route], [.get x route, .loads w.requests.length ref,
        .resumes w.requests.length]],
      ∃ w' s', (machine app).run w js = some (w', [.answers w.requests.length (route.show s')]) ∧
        s.Later s' ∧ (w.sessions.get? x = none → s.Restored s') := by
  cases hget : w.sessions.get? x with
  | some k =>
      obtain ⟨obj, hobj, hlater, -⟩ := hw.held k (Or.inl hget)
      have hshows : Server.step app w (.get x route) = some (w.addRequest .ended,
          [.answers w.requests.length (route.show obj.sc.session)]) :=
        Shows.of_held hget hobj route
      have hrun : (machine app).run w [.get x route] = some (w.addRequest .ended,
          [.answers w.requests.length (route.show obj.sc.session)] ++ []) :=
        Mealy.run_cons hshows rfl
      exact ⟨_, List.mem_cons_self, _, obj.sc.session, hrun, hlater, nofun⟩
  | none =>
      obtain rfl := hw.id
      obtain ⟨s', hload⟩ := App.exists_getSession hports hw.stores ref
      have hrestored := App.restored_of_getSession hw.stores hload
      let r := w.requests.length
      let w₁ := w.addRequest (.loading s.id (.get route))
      let w₂ := (w₁.addObject s').setRequest r (.loaded s.id (.get route) w.objects.length)
      have hget₁ : Server.step app w (.get s.id route) = some (w₁, []) := by
        simp only [Server.step, onGet, hget]
        rfl
      have hat₁ : w₁.requests[r]? = some (.loading s.id (.get route)) :=
        at_addRequest.mpr (Or.inr ⟨rfl, rfl⟩)
      have hloads : Server.step app w₁ (.loads r ref) = some (w₂, []) := by
        simp only [Server.step, hat₁, onLoads,
          handleStorageErrors_eq_ok.mpr (show app.getSession w₁.tree s.id ref = .ok s' from hload)]
        rfl
      have hat₂ : w₂.requests[r]? = some (.loaded s.id (.get route) w.objects.length) :=
        (at_setRequest (w := w₁.addObject s') hat₁).mpr (Or.inl ⟨rfl, rfl⟩)
      have hobj : w₂.objects[w.objects.length]? = some (.fresh s') :=
        List.getElem?_concat_iff.mpr (Or.inr ⟨rfl, rfl⟩)
      have hresumes : Server.step app w₂ (.resumes r) =
          some ((w₂.register s.id w.objects.length).setRequest r .ended,
            [.answers r (route.show s')]) := by
        simp only [Server.step, hat₂, onResumes, hobj]
        rfl
      have hrun : (machine app).run w [.get s.id route, .loads r ref, .resumes r] =
          some ((w₂.register s.id w.objects.length).setRequest r .ended,
            [] ++ ([] ++ ([.answers r (route.show s')] ++ []))) :=
        Mealy.run_cons hget₁ (Mealy.run_cons hloads (Mealy.run_cons hresumes rfl))
      exact ⟨_, List.mem_cons_of_mem _ (List.mem_singleton_self _), _, s', hrun, hrestored.later,
        fun _ ↦ hrestored⟩

end

end Server

/-! ## Runs with restarts -/

namespace Service

/-- What happens to the service. -/
inductive Input where
  | server (i : Server.Input)
  /-- The process ends, however, and a new one is started. -/
  | restarts

section

variable [UnicodeData] [SessionCodec] [LlmPortFactory]

/-- One step. -/
def step (app : App) (w : Server) : Input → Option (Server × List Server.Obs)
  | .server i => Server.step app w i
  | .restarts => some (.start w.tree, [])

/-- The machine of the service. -/
def machine (app : App) : Mealy Server Input Server.Obs := ⟨step app⟩

/-- `execute` does not suspend. -/
def AtomicExecute (w : Server) : Input → Prop
  | .server i => w.AtomicExecute i
  | .restarts => True

/-- What the server does is for other sessions, or for the session, and saves it if it tries
to. -/
def Proper (app : App) (x : String) (w : Server) : Input → Prop
  | .server i => Server.Proper app x w i
  | .restarts => True

end

section

open Server

variable [UnicodeData] [SessionCodec] [LlmPortFactory] {app : App} {w w₁ : Server} {o o₁ : List Obs}
  {P : Set String} {x : String} {s : Session}

theorem coherent_of_run {t : FileTree} {is : List Input}
    (h : (machine app).run (.start t) is = some (w, o))
    (hatomic : (machine app).StepsMeet AtomicExecute (.start t) is) : w.Coherent := by
  refine Mealy.run_induction_of_steps (P := fun _ w _ ↦ w.Coherent) (Q := AtomicExecute)
    (coherent_start t) ?_ h hatomic
  intro is w o i w' o' hw hi hs
  cases i with
  | server i => exact hw.step hs hi
  | restarts =>
      cases hs
      exact coherent_start w.tree

end

/-! ## A run to evaluate -/

instance (x : String) (w : Server) : DecidablePred (Server.Input.IsFor x w)
  | .post id | .get id _ | .connect id => inferInstanceAs (Decidable (id = x))
  | .creates r _ _ _ | .loads r _ | .resumes r =>
      inferInstanceAs (Decidable ((w.requests[r]?.bind RequestPhase.id?) = some x))
  | .object k _ => inferInstanceAs (Decidable (w.sessions.get? x = some k))
  | .list | .delete _ _ | .closed _ _ | .accepted _ | .acceptFails _ => isFalse id

instance [UnicodeData] [SessionCodec] [LlmPortFactory] (app : App) (x : String) (w : Server) :
    DecidablePred (Proper app x w)
  | .server i => decidable_of_iff (w.AtomicExecute i ∧ (Server.Apart x w i ∨ i.IsFor x w) ∧
      (i.IsFor x w → ∀ r ∈ Server.step app w i, ∀ ob ∈ r.2, ob.SaveFailed = false))
      ⟨fun h ↦ ⟨h.1, h.2.1, h.2.2⟩, fun h ↦ ⟨h.atomic, h.whose, h.saves⟩⟩
  | .restarts => isTrue trivial

instance (w : Server) : DecidablePred (AtomicExecute w)
  | .server i => inferInstanceAs (Decidable (w.AtomicExecute i))
  | .restarts => isTrue trivial

/-- The machine over the sample app whose sessions have prompts. -/
def sampleMachine : Mealy Server Input Server.Obs :=
  @machine .asciiOnly App.samplePromptingCodec App.sampleFactory App.samplePrompting

end Service
