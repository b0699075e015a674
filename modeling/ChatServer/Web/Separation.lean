import ChatServer.Storage.Isolation
import ChatServer.Web.Registry

/-!
# What is done to other sessions

The store keeps sessions apart (`ChatServer.Storage.Isolation`).  The server does so too,
although its sessions share one registry, one list of requests and one directory: as long as
what happens is for other sessions (`Server.Apart`), whatever it is and in whatever order, a
session keeps its object with the handlers and tasks of it, its requests and its files.

This rests on an object being referred to under one identifier (`Server.Separate`), which
holds whether `execute` suspends or not.
-/

open FileTree

namespace CompletionConfig

instance (c : CompletionConfig) : Decidable c.InsidePaths :=
  decidable_of_iff ((∀ f ∈ truthyText c.systemPromptPath, Inside f) ∧
    ∀ f ∈ truthyText c.outputConfigPath, Inside f)
    ⟨fun h ↦ ⟨h.1, h.2⟩, fun h ↦ ⟨h.systemPrompt, h.outputConfig⟩⟩

/-- A copy names no files. -/
theorem insidePaths_copy (c : CompletionConfig) : c.copy.InsidePaths :=
  ⟨fun f hf ↦ absurd hf (Option.not_mem_none f), fun f hf ↦ absurd hf (Option.not_mem_none f)⟩

end CompletionConfig

/-! ## One session in the store -/

namespace Session

/-- The resource files of a session lie inside its directory. -/
def InsidePaths (s : Session) : Prop :=
  s.completionConfig.InsidePaths ∧ s.messageContextStrategy.completionConfig.InsidePaths

instance (s : Session) : Decidable s.InsidePaths := inferInstanceAs (Decidable (_ ∧ _))

theorem Advances.configs [UnicodeData] {s s' : Session} (h : s.Advances s') :
    s'.completionConfig = s.completionConfig ∧
      s'.messageContextStrategy.completionConfig = s.messageContextStrategy.completionConfig := by
  cases h with
  | same => exact ⟨rfl, rfl⟩
  | step _ phase phase' i o hstep hi => exact ⟨hstep.frame.completionConfig, (hstep.strategy hi).2⟩

theorem Advances.insidePaths [UnicodeData] {s s' : Session} (h : s.Advances s')
    (hs : s.InsidePaths) : s'.InsidePaths := by
  rw [InsidePaths, h.configs.1, h.configs.2]
  exact hs

end Session

namespace App

variable [LlmPortFactory] {app : App} {id : String} {now : Datetime} {ref : StatsRef}

/-- A session is made with copies of the configured ones. -/
theorem configs_of_buildSession {s : Session} (h : app.buildSession id now ref = .ok s) :
    ∃ defaults, app.strategyDefaults.get? app.defaultStrategyType = some defaults ∧
      s.completionConfig = app.defaultCompletionConfig.copy ∧
      s.messageContextStrategy.completionConfig = defaults.completionConfig.copy := by
  unfold buildSession at h
  simp only at h
  split at h
  · cases h
  · rename_i defaults hdefaults
    obtain ⟨llm, hllm, h⟩ := Py.bind_eq_ok.mp h
    obtain ⟨strategyLlm, hstrategyLlm, h⟩ := Py.bind_eq_ok.mp h
    obtain ⟨strategy, hbuild, h⟩ := Py.bind_eq_ok.mp h
    cases h
    exact ⟨defaults, hdefaults, rfl,
      congrArg StrategyBase.completionConfig (MessageContextStrategyFactory.base_build hbuild)⟩

theorem insidePaths_buildSession {s : Session} (h : app.buildSession id now ref = .ok s) :
    s.InsidePaths := by
  obtain ⟨defaults, -, hmain, hstrategy⟩ := configs_of_buildSession h
  constructor
  · rw [hmain]
    exact CompletionConfig.insidePaths_copy _
  · rw [hstrategy]
    exact CompletionConfig.insidePaths_copy _

/-- Making a session changes nothing outside its directory. -/
theorem node?_createSession [SessionCodec] {t : FileTree} (hid : PlainName id)
    (faults : List (Option Fault)) {q : List String} (hq : ¬ app.repository.path ++ [id] <+: q) :
    (app.createSession t id now ref faults).1.node? q = t.node? q := by
  unfold createSession
  split
  · rfl
  · rename_i session hbuild
    obtain ⟨hmain, hstrategy⟩ := insidePaths_buildSession hbuild
    obtain rfl : session.id = id := (Built.of_buildSession hbuild).2.1
    have hcreate := SessionFileAdapter.node?_createSession (t := t) hid hmain hstrategy faults hq
    split <;> rename_i heq <;> rw [heq] at hcreate <;> exact hcreate

end App

/-- An object changes nothing outside the directory of its session. -/
theorem WsHandler.Step.node? [UnicodeData] [SessionCodec] {a : SessionFileAdapter}
    {w w' : WsHandler.State} {i : WsHandler.Input} {o : List WsHandler.Obs}
    (hs : WsHandler.Step a w i w' o) (hid : PlainName w.sc.session.id)
    (hpaths : w.sc.session.InsidePaths) {q : List String}
    (hq : ¬ a.path ++ [w.sc.session.id] <+: q) : w'.tree.node? q = w.tree.node? q := by
  rcases hs.tree with hsame | ⟨n, i', faults, task, -, -, -, -, hupdate⟩
  · rw [hsame]
  · obtain ⟨hmain, hstrategy⟩ := hs.advances.insidePaths hpaths
    rw [← hs.session_id] at hid hq
    rw [hupdate]
    exact SessionFileAdapter.node?_updateSession hid hmain hstrategy faults hq

namespace Server

/-! ## Who an object belongs to -/

/-- The object is registered under an identifier, or about to be. -/
def Refers (w : Server) (id : String) (k : ℕ) : Prop :=
  w.sessions.get? id = some k ∨ w.Pending id k

/-- An object is referred to under one identifier. -/
structure Separate (w : Server) : Prop where
  lt : ∀ id k, w.Refers id k → k < w.objects.length
  unique : ∀ id id' k, w.Refers id k → w.Refers id' k → id = id'

theorem separate_start (t : FileTree) : (start t).Separate := by
  have hnone : ∀ id k, ¬ (start t).Refers id k := by
    rintro id k (hget | ⟨r, phase, hat, -⟩)
    · cases hget
    · cases hat
  exact ⟨fun id k h ↦ absurd h (hnone id k), fun id id' k h ↦ absurd h (hnone id k)⟩

/-! ## What is for which session -/

/-- The object an input is for. -/
def Input.held (w : Server) : Input → Option Held
  | .object k _ => w.objects[k]?
  | _ => none

/-- The identifiers an input is for: that of its request, or that of the session of its object
and those the object is registered under. -/
def Input.ids (w : Server) : Input → List String
  | .post id | .get id _ | .delete id _ | .connect id => [id]
  | .list => []
  | .creates r _ _ _ | .loads r _ | .resumes r | .closed r _ | .accepted r | .acceptFails r =>
      (w.requests[r]?.bind RequestPhase.id?).toList
  | .object k _ => (w.objects[k]?.map (·.sc.session.id)).toList ++
      w.sessions.keys.filter (w.sessions.get? · = some k)

/-- The input is for other sessions than `x`, all under plain names, and the object it moves
keeps its resource files inside its directory. -/
structure Apart (x : String) (w : Server) (i : Input) : Prop where
  ids : ∀ id ∈ i.ids w, PlainName id ∧ id ≠ x
  inside : ∀ obj ∈ i.held w, obj.sc.session.InsidePaths

instance (x : String) (w : Server) (i : Input) : Decidable (Apart x w i) :=
  decidable_of_iff ((∀ id ∈ i.ids w, PlainName id ∧ id ≠ x) ∧
    ∀ obj ∈ i.held w, obj.sc.session.InsidePaths)
    ⟨fun h ↦ ⟨h.1, h.2⟩, fun h ↦ ⟨h.ids, h.inside⟩⟩

section

variable {w : Server} {i : Input} {x id : String} {r k : ℕ} {phase : RequestPhase}

theorem Apart.request (h : Apart x w i) (hat : w.At r phase) (hid : phase.id? = some id)
    (hi : i.ids w = (w.requests[r]?.bind RequestPhase.id?).toList) : PlainName id ∧ id ≠ x := by
  apply h.ids
  rw [hi, show w.requests[r]? = some phase from hat, Option.bind_some, hid]
  exact List.mem_singleton_self id

theorem Apart.object {j : WsHandler.Input} {obj : Held} (h : Apart x w (.object k j))
    (hobj : w.objects[k]? = some obj) : (PlainName obj.sc.session.id ∧ obj.sc.session.id ≠ x) ∧
      obj.sc.session.InsidePaths ∧ w.sessions.get? x ≠ some k := by
  have hid : obj.sc.session.id ∈ Input.ids w (.object k j) := by
    apply List.mem_append_left
    rw [hobj]
    exact List.mem_singleton_self _
  refine ⟨h.ids _ hid, h.inside obj hobj, fun hget ↦ ?_⟩
  have hkey : x ∈ w.sessions.keys := by
    by_contra hnot
    rw [OrderedDict.get?_eq_none_iff.mpr hnot] at hget
    cases hget
  have hmem : x ∈ Input.ids w (.object k j) :=
    List.mem_append_right _ (List.mem_filter.mpr ⟨hkey, decide_eq_true hget⟩)
  exact (h.ids x hmem).2 rfl

end

section

variable [UnicodeData] [SessionCodec] [LlmPortFactory] {app : App} {w w' : Server} {i : Input}
  {o : List Obs} {x id : String} {k : ℕ}

/-! ## The registry -/

omit [UnicodeData] in
theorem Brings.unique {id' : String} {phase phase' : RequestPhase} (h : Brings app w id i phase)
    (h' : Brings app w id' i phase') : id = id' := by
  cases h with
  | creates r now ref faults tree session hr hcreate =>
      cases h' with
      | creates _ _ _ _ tree' session' hr' hcreate' =>
          exact RequestPhase.creating.inj (Option.some.inj (hr.symm.trans hr'))
  | loads r loader ref session hr hget =>
      cases h' with
      | loads _ loader' _ session' hr' hget' =>
          exact (RequestPhase.loading.inj (Option.some.inj (hr.symm.trans hr'))).1

/-- An object is referred to that was, or that this step has made. -/
theorem Step.refers (hs : Step app w i w' o) (h : w'.Refers id k) :
    w.Refers id k ∨ k = w.objects.length ∧ ∃ phase, Brings app w id i phase := by
  rcases h with hget | hpending
  · rcases hs.registered hget with ⟨-, hsame⟩ | hpending
    · exact Or.inl (Or.inl hsame)
    · exact Or.inl (Or.inr hpending)
  · exact (hs.pending hpending).imp_left Or.inr

theorem Separate.step (hw : w.Separate) (hs : Step app w i w' o) : w'.Separate := by
  constructor
  · intro id k h
    rcases hs.refers h with hold | ⟨rfl, phase, hbrings⟩
    · exact (hw.lt id k hold).trans_le hs.objects_length_le
    · obtain ⟨obj, hobj⟩ := hs.object_of_brings hbrings
      exact (List.getElem?_eq_some_iff.mp hobj).1
  · intro id id' k h h'
    rcases hs.refers h with hold | ⟨rfl, phase, hbrings⟩
    · rcases hs.refers h' with hold' | ⟨rfl, -⟩
      · exact hw.unique id id' k hold hold'
      · exact absurd (hw.lt _ _ hold) (lt_irrefl _)
    · rcases hs.refers h' with hold' | ⟨-, phase', hbrings'⟩
      · exact absurd (hw.lt _ _ hold') (lt_irrefl _)
      · exact hbrings.unique hbrings'

theorem separate_of_run {t : FileTree} {is : List Input}
    (h : (machine app).run (.start t) is = some (w, o)) : w.Separate := by
  refine Mealy.run_invariant (P := Separate) ?_ (separate_start t) h
  exact fun w i w' o hw hs ↦ hw.step (.of_step hs)

/-! ## What a step leaves -/

/-- What is for others changes nothing on the way to the directory of a session or inside it. -/
theorem Apart.node? (hi : Apart x w i) (hs : Step app w i w' o) {q : List String}
    (hq : app.repository.path ++ [x] <+: q ∨ q <+: app.repository.path ++ [x]) :
    w'.tree.node? q = w.tree.node? q := by
  have hsibling : ∀ {id : String}, id ≠ x → ¬ app.repository.path ++ [id] <+: q :=
    fun hne ↦ SessionFileAdapter.not_prefix_of_sibling hne hq
  have hcreate : ∀ {r id now ref faults t' outcome}, w.At r (.creating id) →
      i = .creates r now ref faults →
        app.createSession w.tree id now ref faults = (t', outcome) →
          t'.node? q = w.tree.node? q := by
    rintro r id now ref faults t' outcome hr rfl heq
    obtain ⟨hid, hne⟩ := hi.request hr rfl rfl
    have hframe : (app.createSession w.tree id now ref faults).1.node? q = w.tree.node? q :=
      App.node?_createSession hid faults (hsibling hne)
    rw [heq] at hframe
    exact hframe
  have hconnect (obj : Held) : (obj.onTree w.tree).connect.tree.node? q = w.tree.node? q := by
    have hstep : WsHandler.Step app.repository (obj.onTree w.tree) .connects
        (obj.onTree w.tree).connect [] := connect_step obj w.tree
    have hsame := hstep.tree
    simp only [reduceCtorEq, false_and, exists_false, or_false] at hsame
    exact congrArg (FileTree.node? · q) hsame
  cases hs with
  | delete id fault =>
      obtain ⟨hid, hne⟩ := hi.ids id (List.mem_singleton_self id)
      exact SessionFileAdapter.node?_deleteSession hid fault (hsibling hne)
  | closedDelete r id fault hr =>
      obtain ⟨hid, hne⟩ := hi.request hr rfl rfl
      exact SessionFileAdapter.node?_deleteSession hid fault (hsibling hne)
  | creates r id now ref faults tree session o hr heq ho => exact hcreate hr rfl heq
  | createsFails r id now ref faults tree e o ob hr heq ho hob => exact hcreate hr rfl heq
  | loadFails r id loader ref e hr hget => rw [tree_onLoadFails]
  | connectHeld id k obj held hobj => exact hconnect obj
  | resumesConnect r id k obj hr hobj => exact hconnect obj
  | object k j obj c o' hj hobj hstep =>
      obtain ⟨⟨hid, hne⟩, hpaths, -⟩ := hi.object hobj
      exact hstep.node? hid hpaths (hsibling hne)
  | _ => rfl

/-- Nor what the session is registered as. -/
theorem Apart.sessions (hi : Apart x w i) (hs : Step app w i w' o) :
    w'.sessions.get? x = w.sessions.get? x := by
  have hregister : ∀ {r phase id k}, w.At r phase → phase.id? = some id → i = .resumes r →
      (w.register id k).sessions.get? x = w.sessions.get? x := by
    rintro r phase id k hat hid rfl
    exact OrderedDict.get?_set_of_ne _ _ (hi.request hat hid rfl).2
  have hunregister : ∀ {id fault}, i = .delete id fault →
      (w.unregister id).sessions.get? x = w.sessions.get? x := by
    rintro id fault rfl
    have hne : x ≠ id := (hi.ids id (List.mem_singleton_self id)).2.symm
    rw [unregister, OrderedDict.get?_filterKeys, if_pos (decide_eq_true hne)]
  cases hs with
  | delete id fault | deleteConnected id fault => exact hunregister rfl
  | resumesCreated r id k obj hr => exact hregister hr rfl rfl
  | resumesGet r id route k obj hr => exact hregister hr rfl rfl
  | resumesConnect r id k obj hr hobj => exact hregister hr rfl rfl
  | loadFails r id loader ref e hr hget => rw [sessions_onLoadFails]
  | _ => rfl

/-- Nor its object. -/
theorem Apart.objects (hi : Apart x w i) (hw : w.Separate) (hs : Step app w i w' o)
    (hk : w.sessions.get? x = some k) : w'.objects[k]? = w.objects[k]? := by
  have hlt : k < w.objects.length := hw.lt x k (Or.inl hk)
  cases hs with
  | connectHeld id k' obj held hobj =>
      apply List.getElem?_set_ne
      rintro rfl
      exact (hi.ids id (List.mem_singleton_self id)).2 (hw.unique id x k' (Or.inl held) (Or.inl hk))
  | resumesConnect r id k' obj hr hobj =>
      apply List.getElem?_set_ne
      rintro rfl
      refine (hi.request hr rfl rfl).2 (hw.unique id x k' (Or.inr ?_) (Or.inl hk))
      exact ⟨r, _, hr, rfl⟩
  | creates r id now ref faults tree session o hr hcreate ho => exact List.getElem?_append_left hlt
  | loads r id loader ref session hr hget => exact List.getElem?_append_left hlt
  | loadFails r id loader ref e hr hget => rw [objects_onLoadFails]
  | object k' j obj c o' hj hobj hstep =>
      apply List.getElem?_set_ne
      rintro rfl
      exact (hi.object hobj).2.2 hk
  | _ => rfl

/-- Every request but the one the input is for stays where it is. -/
theorem Step.at_of_ne {r : ℕ} {phase : RequestPhase} (hs : Step app w i w' o) (h : w.At r phase)
    (hr : i.request w ≠ some r) : w'.At r phase := by
  have hset : ∀ {r' : ℕ} {old new : RequestPhase}, some r' ≠ some r → w.At r' old →
      (w.setRequest r' new).At r phase := by
    intro r' old new hne hold
    refine (at_setRequest hold).mpr (Or.inr ⟨?_, h⟩)
    rintro rfl
    exact hne rfl
  cases hs with
  | postInvalid | postTaken id' k taken | post id' free | getHeld id' route obj | get id' route
  | list ids | listFails e | connect id' => exact at_addRequest.mpr (Or.inl h)
  | delete id' fault | deleteConnected id' fault =>
      exact (at_addRequest (w := w.unregister id')).mpr (Or.inl h)
  | connectHeld id' k obj held hobj => exact h
  | creates r' id' now ref faults tree session o hr' hcreate ho => exact hset hr hr'
  | createsFails r' id' now ref faults tree e o ob hr' hcreate ho hob => exact hset hr hr'
  | loads r' id' loader ref session hr' hget => exact hset hr hr'
  | loadFails r' id' loader ref e hr' hget =>
      cases e with
      | storageError message original => cases loader <;> exact hset hr hr'
      | raised e => cases e <;> cases loader <;> exact hset hr hr'
  | resumesCreated r' id' k obj hr' => exact hset hr hr'
  | resumesGet r' id' route k obj hr' => exact hset hr hr'
  | resumesConnect r' id' k obj hr' hobj => exact hset hr hr'
  | closedDelete r' id' fault hr' => exact hset hr hr'
  | closed r' fault hr' => exact hset hr hr'
  | accepted r' code hr' => exact hset hr hr'
  | acceptFails r' code hr' => exact hset hr hr'
  | object k i obj c o hi hobj hstep => exact h

/-- Nor the requests for the session. -/
theorem Apart.requests {r : ℕ} {phase : RequestPhase} (hi : Apart x w i)
    (hs : Step app w i w' o) (hid : phase.id? = some x) : w'.At r phase ↔ w.At r phase := by
  constructor
  · intro h
    rcases hs.request h with hsame | hturns
    · exact hsame
    · cases hturns with
      | creating id | loading id route | connecting id | deleting id fault =>
          cases hid
          exact absurd rfl (hi.ids x (List.mem_singleton_self x)).2
      | brings hbrings =>
          cases hbrings with
          | creates r now ref faults tree session hr hcreate =>
              exact absurd (Option.some.inj hid) (hi.request hr rfl rfl).2
          | loads r loader ref session hr hget =>
              exact absurd (Option.some.inj hid) (hi.request hr rfl rfl).2
      | released i hnone =>
          rw [hnone] at hid
          cases hid
  · intro h
    refine hs.at_of_ne h fun hr ↦ ?_
    have hold : ∀ {r' : ℕ}, some r' = some r →
        i.ids w = (w.requests[r']?.bind RequestPhase.id?).toList → False := by
      rintro r' ⟨⟩ hids
      exact (hi.request h hid hids).2 rfl
    have hnew : w.requests.length ≠ r := (List.getElem?_eq_some_iff.mp h).1.ne'
    cases i with
    | post id | get id route | list | delete id fault | connect id =>
        exact hnew (Option.some.inj hr)
    | creates r' now ref faults => exact hold hr rfl
    | loads r' ref => exact hold hr rfl
    | resumes r' => exact hold hr rfl
    | closed r' fault => exact hold hr rfl
    | accepted r' => exact hold hr rfl
    | acceptFails r' => exact hold hr rfl
    | object k j => cases hr

/-! ## What a run leaves -/

/-- All there is of the session `x` is where it was. -/
structure Unaffected (app : App) (x : String) (w w' : Server) : Prop where
  sessions : w'.sessions.get? x = w.sessions.get? x
  objects : ∀ k, w.sessions.get? x = some k → w'.objects[k]? = w.objects[k]?
  requests : ∀ r phase, phase.id? = some x → (w'.At r phase ↔ w.At r phase)
  files : ∀ q, app.repository.path ++ [x] <+: q ∨ q <+: app.repository.path ++ [x] →
    w'.tree.node? q = w.tree.node? q

omit [UnicodeData] [SessionCodec] [LlmPortFactory] in
theorem Unaffected.refl (app : App) (x : String) (w : Server) : Unaffected app x w w :=
  ⟨rfl, fun _ _ ↦ rfl, fun _ _ _ ↦ Iff.rfl, fun _ _ ↦ rfl⟩

/-- **One step** that is for others leaves the session alone. -/
theorem Unaffected.step {w₁ : Server} (h : Unaffected app x w₁ w) (hw : w.Separate)
    (hi : Apart x w i) (hs : Step app w i w' o) : Unaffected app x w₁ w' where
  sessions := (hi.sessions hs).trans h.sessions
  objects k hk := (hi.objects hw hs (h.sessions.trans hk)).trans (h.objects k hk)
  requests r phase hid := (hi.requests hs hid).trans (h.requests r phase hid)
  files q hq := (hi.node? hs hq).trans (h.files q hq)

theorem Unaffected.of_run {w₁ : Server} {js : List Input} (hw₁ : w₁.Separate)
    (h : (machine app).run w₁ js = some (w, o))
    (hapart : (machine app).StepsMeet (Apart x) w₁ js) : Unaffected app x w₁ w := by
  have hboth : Unaffected app x w₁ w ∧ w.Separate := by
    refine Mealy.run_induction_of_steps
      (P := fun _ w _ ↦ Unaffected app x w₁ w ∧ w.Separate) (Q := Apart x) ?_ ?_ h hapart
    · exact ⟨.refl app x w₁, hw₁⟩
    · rintro _ w _ i w' o' ⟨hunaffected, hw⟩ hi hs
      exact ⟨hunaffected.step hw hi (.of_step hs), hw.step (.of_step hs)⟩
  exact hboth.1

/-- What is shown of the session is what was shown. -/
theorem Unaffected.shows {s : Session} (h : Unaffected app x w w') (hs : Shows app x w s) :
    Shows app x w' s := by
  obtain ⟨k, obj, hget, hobj, -⟩ := hs.held
  have hshown : Shows app x w' obj.sc.session :=
    .of_held (h.sessions.trans hget) ((h.objects k hget).trans hobj)
  intro route
  have hheld : Shows app x w obj.sc.session := .of_held hget hobj
  have hboth := (hs route).symm.trans (hheld route)
  obtain ⟨-, hobs⟩ := Prod.mk.inj (Option.some.inj hboth)
  rw [hshown route, (Obs.answers.inj (List.cons.inj hobs).1).2]

/-- While everything that happens is for other sessions, a session keeps its registration, its
object, its requests and its files; so the routes show what they showed, and loading and
listing it gives what it gave. -/
theorem unaffected_of_run {t : FileTree} {is js : List Input} {w₁ : Server} {o₁ : List Obs}
    (hx : PlainName x) (h₁ : (machine app).run (.start t) is = some (w₁, o₁))
    (h : (machine app).run w₁ js = some (w, o))
    (hapart : (machine app).StepsMeet (Apart x) w₁ js)
    (hstored : app.repository.StoredInside w₁.tree x) :
    Unaffected app x w₁ w ∧ (∀ s, Shows app x w₁ s → Shows app x w s) ∧
      (∀ ref, app.getSession w.tree x ref = app.getSession w₁.tree x ref) ∧
        app.repository.lists w.tree x = app.repository.lists w₁.tree x := by
  have hunaffected : Unaffected app x w₁ w := .of_run (separate_of_run h₁) h hapart
  refine ⟨hunaffected, fun s hs ↦ hunaffected.shows hs, fun ref ↦ ?_, ?_⟩
  · rw [App.getSession, App.getSession,
      SessionFileAdapter.getSession_congr hx hstored hunaffected.files]
  · exact SessionFileAdapter.lists_congr fun q hq ↦ hunaffected.files q (Or.inr hq)

end

/-! ## A run to evaluate -/

/-- The sample app over a store that holds the session `b`. -/
def sampleStored : Mealy Server Input Obs :=
  @machine App.sampleFactory SessionFileAdapter.sampleCodec .asciiOnly App.sample

/-- The session `b` is asked for. -/
def sampleAsked : List Input := [.get "b" .info, .loads 0 ⟨0⟩, .resumes 0]

/-- The server that has shown `b`. -/
def sampleShown : Server :=
  ((sampleStored.run (.start SessionFileAdapter.sampleTree) sampleAsked).map Prod.fst).getD
    (.start SessionFileAdapter.sampleTree)

/-- The session `a` is made, gets a message and is deleted. -/
def sampleOther : List Input :=
  [.post "a", .creates 1 ⟨0⟩ ⟨1⟩ [], .resumes 1, .connect "a", .object 1 (.handler 0 .accepted),
    .object 1 (.handler 0 (.receives (some (.sendMessage "hi")))), .delete "a" none,
    .closed 2 none]

theorem storedInside_sampleShown :
    @SessionFileAdapter.StoredInside SessionFileAdapter.sampleCodec .sampleStore sampleShown.tree
      "b" := by
  intro content raw _ hload
  change (if content = SessionFileAdapter.sampleInfoText "b" then
    Except.ok SessionFileAdapter.sampleInfo else _) = _ at hload
  split at hload
  · cases hload
    refine ⟨by decide, fun strategy hs ↦ ?_⟩
    cases hs
    decide
  · cases hload

/-- Nothing that happens to `a` is seen on `b`. -/
theorem unaffected_sampleOther : ∃ o₁ w o s,
    sampleStored.run (.start SessionFileAdapter.sampleTree) sampleAsked = some (sampleShown, o₁) ∧
      sampleStored.run sampleShown sampleOther = some (w, o) ∧
      o.getLast? = some (.answers 2 .noContent) ∧
      @Shows .asciiOnly SessionFileAdapter.sampleCodec App.sampleFactory App.sample "b"
        sampleShown s ∧
      @Shows .asciiOnly SessionFileAdapter.sampleCodec App.sampleFactory App.sample "b" w s := by
  obtain ⟨⟨w₁, o₁⟩, hrun₁⟩ := Option.isSome_iff_exists.mp
    (show (sampleStored.run (.start SessionFileAdapter.sampleTree) sampleAsked).isSome = true from
      by decide +kernel)
  obtain rfl : sampleShown = w₁ := by
    rw [sampleShown, hrun₁]
    rfl
  obtain ⟨obj, hobj⟩ := Option.isSome_iff_exists.mp
    (show (sampleShown.objects[0]?).isSome = true by decide +kernel)
  have hs : @Shows .asciiOnly SessionFileAdapter.sampleCodec App.sampleFactory App.sample "b"
      sampleShown obj.sc.session :=
    @Shows.of_held .asciiOnly SessionFileAdapter.sampleCodec App.sampleFactory App.sample
      sampleShown 0 "b" obj (by decide +kernel) hobj
  obtain ⟨⟨w, o⟩, hrun, ho⟩ := Option.map_eq_some_iff.mp
    (show (sampleStored.run sampleShown sampleOther).map (·.2.getLast?) =
      some (some (.answers 2 .noContent)) by decide +kernel)
  have hapart : sampleStored.StepsMeet (Apart "b") sampleShown sampleOther :=
    .of_checks (by decide +kernel)
  obtain ⟨-, hshows, -, -⟩ := @unaffected_of_run .asciiOnly SessionFileAdapter.sampleCodec
    App.sampleFactory App.sample w o "b" SessionFileAdapter.sampleTree sampleAsked sampleOther
    sampleShown o₁ (by decide) hrun₁ hrun hapart storedInside_sampleShown
  exact ⟨o₁, w, o, _, hrun₁, hrun, ho, hs, hshows _ hs⟩

end Server
