import ChatServer.Web.Saving

/-!
# Deletion

`delete_session` takes the session out of the registry, waits until its socket is closed,
and then removes its files.  What it leaves is `Unknown`: neither registered nor stored,
and answered accordingly.

It is so as long as nobody makes an object for the session in the meantime (`Undisturbed`).
The object would be registered when its request goes on, be it before or after the files
are gone, so the condition is on the moment at which the object is made: it is not pending
when the request to delete arrives, and is not made while this request waits.

The runs are about one session (`Concerns`), with any number of requests of every kind.
-/

open FileTree

namespace App

section

variable [LlmPortFactory] {app : App} {id : String} {now : Datetime} {ref : StatsRef}

theorem buildSession_ne_fileExistsError {message : String}
    (hllm : ∀ sessionId c, LlmPortFactory.create sessionId c ≠ .error (.fileExistsError message)) :
    app.buildSession id now ref ≠ .error (.fileExistsError message) := by
  have hraises : Py.RaisesOnly (· ≠ .fileExistsError message) (app.buildSession id now ref) := by
    have hcreate : ∀ c, Py.RaisesOnly (· ≠ .fileExistsError message)
        (LlmPortFactory.create id c) := by
      rintro c e he rfl
      exact hllm id c he
    unfold buildSession
    simp only
    split
    · exact Py.raisesOnly_error.mpr PyExc.noConfusion
    · apply Py.raisesOnly_bind.mpr ⟨hcreate _, fun llm _ ↦ ?_⟩
      apply Py.raisesOnly_bind.mpr ⟨hcreate _, fun strategyLlm _ ↦ ?_⟩
      simp only [Session.create]
      refine Py.raisesOnly_bind.mpr ⟨?_, fun strategy _ ↦ ?_⟩
      · apply MessageContextStrategyFactory.raisesOnly_build <;> intros <;>
          exact PyExc.noConfusion
      · exact Py.raisesOnly_ok _
  exact fun h ↦ hraises _ h rfl

variable [SessionCodec] {t t' : FileTree} {faults : List (Option Fault)}

/-- `create_uc.execute` makes the directory, or fails and changes nothing. -/
theorem createSession_cases {outcome : Except PyExc Session}
    (h : app.createSession t id now ref faults = (t', outcome)) :
    t'.pathExists (app.repository.sessionDir id) = true ∨
      t' = t ∧ ∃ e, outcome = .error e := by
  unfold createSession at h
  split at h
  · cases h
    exact Or.inr ⟨rfl, _, rfl⟩
  · rename_i session hbuild
    have hid : session.id = id := (Built.of_buildSession hbuild).2.1
    rw [← hid]
    rcases app.repository.createSession_cases t session faults with hexists | ⟨e, heq⟩
    · left
      split at h <;>
        · rename_i heq
          cases h
          rw [heq] at hexists
          exact hexists
    · rw [heq] at h
      cases h
      exact Or.inr ⟨rfl, e, rfl⟩

/-- A session that is not stored is not found to exist by `create_uc.execute`. -/
theorem createSession_ne_fileExistsError {message : String}
    (habsent : t.Absent (app.repository.sessionDir id))
    (hllm : ∀ sessionId c, LlmPortFactory.create sessionId c ≠ .error (.fileExistsError message))
    (hdump : ∀ m : OutputModel, ConfigCodec.dumpModel m ≠ .error (.fileExistsError message)) :
    (app.createSession t id now ref []).2 ≠ .error (.fileExistsError message) := by
  unfold createSession
  split
  · rename_i e hbuild
    rintro ⟨⟩
    exact buildSession_ne_fileExistsError hllm hbuild
  · rename_i session hbuild
    have hid : session.id = id := (Built.of_buildSession hbuild).2.1
    rw [← hid] at habsent
    have hrepository := SessionFileAdapter.createSession_ne_fileExistsError habsent hdump
    split
    · rename_i e heq
      rw [heq] at hrepository
      rintro ⟨⟩
      exact hrepository rfl
    · nofun

end

end App

namespace Server

/-! ## What is said about a deleted session -/

/-- The input is about one session. -/
def Concerns (id : String) (w : Server) : Input → Prop
  | .post id' | .get id' _ | .delete id' _ | .connect id' => id' = id
  | .object k _ => ∀ obj, w.objects[k]? = some obj → obj.sc.session.id = id
  | _ => True

/-- A request to delete has been answered with 204, and the directory of the session has
not come to be since. -/
def Deleted (id : String) (o : List Obs) : Prop :=
  ∃ o₁ r o₂, o = o₁ ++ .answers r .noContent :: o₂ ∧ ∀ k, .makes id k ∉ o₂

theorem Deleted.append_cases {id : String} {o o' : List Obs} (h : Deleted id (o ++ o')) :
    Deleted id o ∧ (∀ k, .makes id k ∉ o') ∨ ∃ r, .answers r .noContent ∈ o' := by
  obtain ⟨o₁, r, o₂, heq, hmakes⟩ := h
  rcases List.append_eq_append_iff.mp heq with ⟨rest, -, rfl⟩ | ⟨rest, rfl, hrest⟩
  · exact Or.inr ⟨r, List.mem_append_right _ List.mem_cons_self⟩
  · cases rest with
    | nil =>
        rw [List.nil_append] at hrest
        exact Or.inr ⟨r, hrest ▸ List.mem_cons_self⟩
    | cons ob rest =>
        rw [List.cons_append] at hrest
        obtain ⟨rfl, rfl⟩ := List.cons.inj hrest
        refine Or.inl ⟨⟨o₁, r, rest, rfl, fun k hk ↦ ?_⟩, fun k hk ↦ ?_⟩
        · exact hmakes k (List.mem_append_left _ hk)
        · exact hmakes k (List.mem_append_right _ hk)

theorem tree_onLoadFails (w : Server) (r : ℕ) (e : WebExc) (loader : Loader) :
    (w.onLoadFails r e loader).1.tree = w.tree := by
  cases e with
  | storageError message original => cases loader <;> rfl
  | raised e => cases e <;> cases loader <;> rfl

section

variable [UnicodeData] [SessionCodec] [LlmPortFactory]

/-- Nobody makes an object for a session while it is being deleted, or has made one that is
not registered when the request to delete arrives; and `rmtree`, once it has begun, does not
fail because something is not there. -/
def Undisturbed (app : App) (id : String) (w : Server) : Input → Prop
  | .delete _ fault => (∀ k, ¬ w.Pending id k) ∧ ∀ removed, fault ≠ some (.notFound, removed)
  | .closed _ fault => ∀ removed, fault ≠ some (.notFound, removed)
  | i => w.Deleting id → ∀ phase, ¬ Brings app w id i phase

/-- The server knows nothing of a session: it is neither registered nor stored, a GET is
answered with 404, and a POST is not refused with 409. -/
structure Unknown (app : App) (id : String) (w : Server) : Prop where
  unregistered : w.sessions.get? id = none
  unstored : w.tree.pathExists (app.repository.sessionDir id) = false
  get : ∀ route, step app w (.get id route) = some (w.addRequest (.loading id (.get route)), [])
  notFound : ∀ r route ref, w.At r (.loading id (.get route)) →
    step app w (.loads r ref) =
      some (w.setRequest r .ended, [.answers r (.error 404 "Session not found")])
  post : id ≠ "" → step app w (.post id) = some (w.addRequest (.creating id), [])
  creates : ∀ r now ref w' o, w.At r (.creating id) →
    step app w (.creates r now ref []) = some (w', o) →
      ∀ r' detail, .answers r' (.error 409 detail) ∉ o

/-- Being neither registered nor stored is all there is to it. -/
theorem Unknown.of_absent {app : App} {id : String} {w : Server}
    (hllm : ∀ sessionId c message,
      LlmPortFactory.create sessionId c ≠ .error (.fileExistsError message))
    (hdump : ∀ (m : OutputModel) (message : String),
      ConfigCodec.dumpModel m ≠ .error (.fileExistsError message))
    (hsessions : w.sessions.get? id = none)
    (habsent : w.tree.Absent (app.repository.sessionDir id)) : Unknown app id w where
  unregistered := hsessions
  unstored := habsent.pathExists
  get route := by
    simp only [step, onGet, hsessions]
  notFound := by
    intro r route ref hr
    have hget : app.getSession w.tree id ref = .error (.fileNotFoundError
        ("File with part of session info not found: " ++
          pathText (app.repository.sessionDir id ++ [SessionFileAdapter.sessionInfo]))) := by
      rw [App.getSession, SessionFileAdapter.getSession_of_absent habsent]
      rfl
    simp only [step, show w.requests[r]? = _ from hr, onLoads, hget]
    rfl
  post hid := by
    simp only [step, onPost, if_neg hid, hsessions]
  creates := by
    intro r now ref w' o hr hs r' detail hmem
    have hnew := fun message ↦ @App.createSession_ne_fileExistsError _ app id now ref _ w.tree
      message habsent (fun sessionId c ↦ hllm sessionId c message) fun m ↦ hdump m message
    cases Step.of_step hs with
    | creates _ id' _ _ _ tree session _ hr' hcreate ho =>
        rw [ho] at hmem
        cases List.mem_singleton.mp (List.mem_ite_nil_right.mp hmem).2
    | createsFails _ id' _ _ _ tree e o ob hr' hcreate ho hob =>
        cases Option.some.inj (hr.symm.trans hr')
        rcases List.mem_append.mp hmem with hmem | hmem
        · rw [ho] at hmem
          cases List.mem_singleton.mp (List.mem_ite_nil_right.mp hmem).2
        · obtain rfl := List.mem_singleton.mp hmem
          rcases hob with ⟨message, rfl, -⟩ | hob | hob
          · exact hnew message (congrArg Prod.snd hcreate)
          · cases hob
          · injection hob with _ hob
            injection hob with hob
            cases hob

end

/-! ## The invariant -/

/-- The requests are about one session.  Nobody refers to it while it is being deleted, and
after it was, and then it is not stored either. -/
structure Following (app : App) (id : String) (w : Server) (o : List Obs) : Prop where
  named : ∀ r phase id', w.At r phase → phase.id? = some id' → id' = id
  unreferred : w.Deleting id ∨ Deleted id o → ∀ k, w.sessions.get? id ≠ some k ∧ ¬ w.Pending id k
  absent : Deleted id o → w.tree.Absent (app.repository.sessionDir id)

theorem following_start (app : App) (id : String) (t : FileTree) :
    Following app id (start t) [] := by
  have hdeleted : ¬ Deleted id [] := by
    rintro ⟨o₁, r, o₂, heq, -⟩
    cases o₁ <;> cases heq
  refine ⟨?_, ?_, fun h ↦ absurd h hdeleted⟩
  · intro r phase id' hat
    cases hat
  · rintro (⟨r, hat⟩ | h)
    · cases hat
    · exact absurd h hdeleted

/-- A 204 tells that the files were removed, or were not there. -/
theorem of_deleteReply {id : String} {r r' : ℕ} {outcome : Except PyExc Unit}
    (h : deleteReply r id outcome = .answers r' .noContent) :
    outcome = .ok () ∨ ∃ message, outcome = .error (.fileNotFoundError message) := by
  cases outcome with
  | ok => exact Or.inl rfl
  | error e =>
      cases e with
      | fileNotFoundError message => exact Or.inr ⟨message, rfl⟩
      | _ => cases h

section

variable [UnicodeData] [SessionCodec] [LlmPortFactory] {app : App} {id : String}
  {w w' : Server} {i : Input} {o : List Obs}

/-- The requests stay those of one session. -/
theorem Step.named (hs : Step app w i w' o) (hconcerns : w.Concerns id i)
    (hnamed : ∀ r phase id', w.At r phase → phase.id? = some id' → id' = id) :
    ∀ r phase id', w'.At r phase → phase.id? = some id' → id' = id := by
  intro r phase id' hat hid
  rcases hs.request hat with hsame | hturns
  · exact hnamed r phase id' hsame hid
  · cases hturns with
    | creating | loading | connecting | deleting =>
        cases hid
        exact hconcerns
    | brings hbrings =>
        cases hbrings with
        | creates r' now ref faults tree session hr hcreate =>
            cases hid
            exact hnamed r' _ _ hr rfl
        | loads r' loader ref session hr hget =>
            cases hid
            exact hnamed r' _ _ hr rfl
    | released i hnone =>
        rw [hnone] at hid
        cases hid

/-- What answers 204. -/
theorem Step.noContent {r : ℕ} (hs : Step app w i w' o) (hmem : .answers r .noContent ∈ o) :
    ∃ id' fault, (i = .delete id' fault ∨ w.Deleting id' ∧ ∃ r, i = .closed r fault) ∧
      (app.repository.deleteSession w.tree id' fault = (w'.tree, .ok ()) ∨
        ∃ message, app.repository.deleteSession w.tree id' fault =
          (w'.tree, .error (.fileNotFoundError message))) := by
  rcases hs.told hmem with hordinary | ⟨r', id', now, ref, faults, -, -, -, -, hob⟩ |
    ⟨r', id', fault, hwhich, htree, hob⟩
  · exact hordinary.elim
  · cases hob
  · refine ⟨id', fault, hwhich, ?_⟩
    rw [htree]
    refine (of_deleteReply hob.symm).imp (Prod.ext rfl) ?_
    rintro ⟨message, heq⟩
    exact ⟨message, Prod.ext rfl heq⟩

/-- What is not stored stays so, unless a POST makes the directory. -/
theorem Step.absent (hs : Step app w i w' o) (hconcerns : w.Concerns id i)
    (hnamed : ∀ r phase id', w.At r phase → phase.id? = some id' → id' = id)
    (habsent : w.tree.Absent (app.repository.sessionDir id)) :
    w'.tree.Absent (app.repository.sessionDir id) ∨ ∃ k, .makes id k ∈ o := by
  have hmade : ∀ {id' : String} {now : Datetime} {ref : StatsRef} {faults : List (Option Fault)}
      {tree : FileTree} {outcome : Except PyExc Session}, id' = id →
        app.createSession w.tree id' now ref faults = (tree, outcome) →
          tree.Absent (app.repository.sessionDir id) ∨
            Obs.makes id w.objects.length ∈
              if ¬ w.tree.pathExists (app.repository.sessionDir id') ∧
                tree.pathExists (app.repository.sessionDir id') then
                [.makes id' w.objects.length] else [] := by
    rintro id' now ref faults tree outcome rfl hcreate
    rcases App.createSession_cases hcreate with hexists | ⟨rfl, -⟩
    · right
      rw [if_pos ⟨by simp [habsent.pathExists], hexists⟩]
      exact List.mem_singleton_self _
    · exact Or.inl habsent
  cases hs with
  | creates r id' now ref faults tree session o hr hcreate ho =>
      rw [ho]
      exact (hmade (hnamed r _ id' hr rfl) hcreate).imp_right fun h ↦ ⟨_, h⟩
  | createsFails r id' now ref faults tree e o ob hr hcreate ho hob =>
      rw [ho]
      exact (hmade (hnamed r _ id' hr rfl) hcreate).imp_right
        fun h ↦ ⟨_, List.mem_append_left _ h⟩
  | delete id' fault =>
      left
      obtain rfl : id' = id := hconcerns
      exact (SessionFileAdapter.deleteSession_of_absent habsent fault).symm ▸ habsent
  | closedDelete r id' fault hr =>
      left
      obtain rfl := hnamed r _ id' hr rfl
      exact (SessionFileAdapter.deleteSession_of_absent habsent fault).symm ▸ habsent
  | object k i obj c o hi hobj hstep =>
      left
      have hsame := hstep.tree_of_not_exists (by
        rw [show (obj.onTree w.tree).sc.session.id = id from hconcerns obj hobj]
        exact habsent.pathExists)
      show c.tree.Absent _
      rw [hsame]
      exact habsent
  | loadFails r id' loader ref e hr hget =>
      left
      rw [tree_onLoadFails]
      exact habsent
  | connectHeld id' k obj held hobj | resumesConnect r id' k obj hr hobj =>
      left
      show (obj.onTree w.tree).connect.tree.Absent _
      rw [(WsHandler.frame_connect (obj.onTree w.tree)).tree]
      exact habsent
  | _ => exact Or.inl habsent

/-- Who makes an object for a session that is not stored makes its directory. -/
theorem Step.makes_of_brings {phase : RequestPhase} (hs : Step app w i w' o)
    (hbrings : Brings app w id i phase)
    (habsent : w.tree.Absent (app.repository.sessionDir id)) : ∃ k, .makes id k ∈ o := by
  cases hbrings with
  | creates r now ref faults tree session hr hcreate =>
      rcases App.createSession_cases hcreate with hexists | ⟨-, e, he⟩
      · cases hs with
        | creates _ id' _ _ _ tree' session' o hr' hcreate' ho =>
            cases Option.some.inj (hr.symm.trans hr')
            cases hcreate.symm.trans hcreate'
            rw [ho, if_pos ⟨by simp [habsent.pathExists], hexists⟩]
            exact ⟨_, List.mem_singleton_self _⟩
        | createsFails _ id' _ _ _ tree' e o ob hr' hcreate' ho hob =>
            cases Option.some.inj (hr.symm.trans hr')
            cases hcreate.symm.trans hcreate'
      · cases he
  | loads r loader ref session hr hget =>
      rw [App.getSession, SessionFileAdapter.getSession_of_absent habsent] at hget
      cases hget

/-- After a 204 the session is not stored. -/
theorem Following.noContent {o' : List Obs} {r : ℕ} (hid : '/' ∉ id.toList)
    (hpath : app.repository.path ≠ []) (hw : Following app id w o) (hs : Step app w i w' o')
    (hconcerns : w.Concerns id i) (hi : w.Undisturbed app id i)
    (hmem : .answers r .noContent ∈ o') :
    (w.Deleting id ∨ ∃ fault, i = .delete id fault) ∧
      w'.tree.Absent (app.repository.sessionDir id) := by
  obtain ⟨id', fault, hwhich, hdelete⟩ := hs.noContent hmem
  have hname : id' = id := by
    rcases hwhich with rfl | ⟨⟨r', hat⟩, -⟩
    · exact hconcerns
    · exact hw.named r' _ id' hat rfl
  subst hname
  have hfault : ∀ removed, fault ≠ some (.notFound, removed) := by
    rcases hwhich with rfl | ⟨-, r', rfl⟩
    · exact hi.2
    · exact hi
  refine ⟨?_, SessionFileAdapter.absent_of_deleteSession hid hpath hfault hdelete⟩
  exact hwhich.symm.imp And.left fun h ↦ ⟨fault, h⟩

omit [UnicodeData] in
/-- While a request waits to delete the session no object is made for it. -/
theorem Undisturbed.not_brings (hi : w.Undisturbed app id i) (hdeleting : w.Deleting id)
    (phase : RequestPhase) : ¬ Brings app w id i phase := by
  intro hbrings
  cases hbrings with
  | creates r now ref faults tree session hr hcreate =>
      exact hi hdeleting _ (.creates r now ref faults tree session hr hcreate)
  | loads r loader ref session hr hget =>
      exact hi hdeleting _ (.loads r loader ref session hr hget)

/-- **One step** that does not disturb the deletion. -/
theorem Following.step {o' : List Obs} (hid : '/' ∉ id.toList)
    (hpath : app.repository.path ≠ []) (hw : Following app id w o) (hs : Step app w i w' o')
    (hconcerns : w.Concerns id i) (hi : w.Undisturbed app id i) :
    Following app id w' (o ++ o') := by
  have hanswer : ∀ {r}, .answers r .noContent ∈ o' →
      (w.Deleting id ∨ ∃ fault, i = .delete id fault) ∧
        w'.tree.Absent (app.repository.sessionDir id) :=
    fun hmem ↦ hw.noContent hid hpath hs hconcerns hi hmem
  refine ⟨hs.named hconcerns hw.named, fun hgone k ↦ ?_, fun hdeleted ↦ ?_⟩
  · -- who referred to the session did so before, or makes an object for it now
    by_cases hdelete : ∃ fault, i = .delete id fault
    · obtain ⟨fault, rfl⟩ := hdelete
      have hpending : ¬ w.Pending id k := hi.1 k
      constructor
      · intro hregistered
        rcases hs.registered hregistered with ⟨hne, -⟩ | hpending'
        · exact hne fault rfl
        · exact hpending hpending'
      · intro hpending'
        rcases hs.pending hpending' with hpending' | ⟨-, phase, hbrings⟩
        · exact hpending hpending'
        · cases hbrings
    · have hbefore : w.Deleting id ∨ Deleted id o ∧ ∀ k, .makes id k ∉ o' := by
        rcases hgone with hdeleting | hdeleted
        · exact Or.inl ((hs.deleting hdeleting).resolve_right hdelete)
        · rcases hdeleted.append_cases with hdeleted | ⟨r, hmem⟩
          · exact Or.inr hdeleted
          · exact Or.inl ((hanswer hmem).1.resolve_right hdelete)
      refine hs.unreferred (hw.unreferred (hbefore.imp_right And.left) k) fun _ phase hbrings ↦ ?_
      rcases hbefore with hdeleting | ⟨hdeleted, hmakes⟩
      · exact hi.not_brings hdeleting phase hbrings
      · obtain ⟨k', hk'⟩ := hs.makes_of_brings hbrings (hw.absent hdeleted)
        exact hmakes k' hk'
  · rcases hdeleted.append_cases with ⟨hdeleted, hmakes⟩ | ⟨r, hmem⟩
    · rcases hs.absent hconcerns hw.named (hw.absent hdeleted) with habsent | ⟨k, hk⟩
      · exact habsent
      · exact absurd hk (hmakes k)
    · exact (hanswer hmem).2

theorem following_of_run (hid : '/' ∉ id.toList) (hpath : app.repository.path ≠ [])
    {t : FileTree} {is : List Input} (h : (machine app).run (.start t) is = some (w, o))
    (hconcerns : (machine app).StepsMeet (Concerns id) (.start t) is)
    (hundisturbed : (machine app).StepsMeet (Undisturbed app id) (.start t) is) :
    Following app id w o := by
  refine Mealy.run_induction_of_steps (P := fun _ w o ↦ Following app id w o)
    (Q := fun w i ↦ w.Concerns id i ∧ w.Undisturbed app id i) (following_start app id t) ?_ h ?_
  · exact fun _ w o i w' o' hw hi hs ↦ hw.step hid hpath (.of_step hs) hi.1 hi.2
  · exact fun js i w₁ o₁ hp hr ↦ ⟨hconcerns js i w₁ o₁ hp hr, hundisturbed js i w₁ o₁ hp hr⟩

/-- Deletion is final.  In every run about one session in which nobody makes an object for
it while it is being deleted, the server knows nothing of it once a request to delete it was
answered with 204, until its directory is made again. -/
theorem unknown_of_run (hid : '/' ∉ id.toList) (hpath : app.repository.path ≠ [])
    (hllm : ∀ sessionId c message,
      LlmPortFactory.create sessionId c ≠ .error (.fileExistsError message))
    (hdump : ∀ (m : OutputModel) (message : String),
      ConfigCodec.dumpModel m ≠ .error (.fileExistsError message))
    {t : FileTree} {is : List Input} (h : (machine app).run (.start t) is = some (w, o))
    (hconcerns : (machine app).StepsMeet (Concerns id) (.start t) is)
    (hundisturbed : (machine app).StepsMeet (Undisturbed app id) (.start t) is)
    (hdeleted : Deleted id o) : Unknown app id w := by
  have hw := following_of_run hid hpath h hconcerns hundisturbed
  apply Unknown.of_absent hllm hdump ?_ (hw.absent hdeleted)
  cases hget : w.sessions.get? id with
  | none => rfl
  | some k => exact absurd hget (hw.unreferred (Or.inr hdeleted) k).1

end

/-! ## Runs to evaluate -/

/-- The session is deleted while its client is connected. -/
def sampleDeletion : List Input :=
  sampleOpen ++ [.object 0 (.handler 0 .accepted), .delete "s" none, .closed 1 none]

/-- The session is deleted while its client is connected, and shown in the meantime. -/
def sampleRevival : List Input :=
  sampleOpen ++ [.object 0 (.handler 0 .accepted), .delete "s" none, .get "s" .session,
    .loads 2 ⟨1⟩, .resumes 2, .closed 1 none]

theorem concerns_sampleDeletion :
    sampleMachine.StepsMeet (Concerns "s") sampleStart sampleDeletion := by
  refine .cons rfl rfl ?_
  refine .cons rfl trivial ?_
  refine .cons rfl trivial ?_
  refine .cons rfl rfl ?_
  refine .cons rfl ?_ ?_
  · rintro obj ⟨⟩
    rfl
  refine .cons rfl rfl ?_
  exact .cons rfl trivial .nil

theorem not_pending_of_all {w : Server}
    (h : w.requests.all (fun phase ↦ phase.object?.isNone) = true) (id : String) (k : ℕ) :
    ¬ w.Pending id k := by
  rintro ⟨r, phase, hat, hobject⟩
  have hnone := List.all_eq_true.mp h phase (List.mem_of_getElem? hat)
  rw [hobject] at hnone
  cases hnone

theorem not_deleting_of_all {w : Server} {id : String}
    (h : w.requests.all (fun phase ↦ phase ≠ .deleting id) = true) : ¬ w.Deleting id := by
  rintro ⟨r, hat⟩
  exact of_decide_eq_true (List.all_eq_true.mp h _ (List.mem_of_getElem? hat)) rfl

theorem undisturbed_sampleDeletion :
    sampleMachine.StepsMeet (@Undisturbed App.sampleCodec App.sampleFactory App.sample "s")
      sampleStart sampleDeletion := by
  have hfault : ∀ removed, (none : Option (Errno × (List String → Bool))) ≠
      some (.notFound, removed) := nofun
  refine .cons rfl ?_ ?_
  · intro _ _ h
    cases h
  refine .cons rfl (fun h ↦ absurd h (not_deleting_of_all rfl)) ?_
  refine .cons rfl ?_ ?_
  · intro _ _ h
    cases h
  refine .cons rfl ?_ ?_
  · intro _ _ h
    cases h
  refine .cons rfl ?_ ?_
  · intro _ _ h
    cases h
  refine .cons rfl ⟨not_pending_of_all rfl "s", hfault⟩ ?_
  exact .cons rfl hfault .nil

/-- Nothing is left of the session. -/
theorem unknown_sampleDeletion : ∃ w o,
    sampleMachine.run sampleStart sampleDeletion = some (w, o) ∧ Deleted "s" o ∧
      @Unknown .asciiOnly App.sampleCodec App.sampleFactory App.sample "s" w := by
  obtain ⟨⟨w, o⟩, hrun, ho⟩ := Option.map_eq_some_iff.mp
    (show (sampleMachine.run sampleStart sampleDeletion).map Prod.snd =
      some [.makes "s" 0, .answers 0 (.summary "s" ⟨0⟩ 0), .closes 1 1001, .answers 1 .noContent]
      from rfl)
  have hdeleted : Deleted "s" o := by
    rw [show o = _ from ho]
    exact ⟨[.makes "s" 0, .answers 0 (.summary "s" ⟨0⟩ 0), .closes 1 1001], 1, [], rfl,
      fun _ ↦ List.not_mem_nil⟩
  refine ⟨w, o, hrun, hdeleted, ?_⟩
  exact @unknown_of_run .asciiOnly App.sampleCodec App.sampleFactory App.sample "s" w o
    (by decide) (by decide) (fun _ _ _ ↦ nofun) (fun _ _ ↦ nofun) App.sampleTree sampleDeletion
    hrun concerns_sampleDeletion undisturbed_sampleDeletion hdeleted

set_option maxRecDepth 10000 in
/-- A request that shows the session while its socket is being closed brings it back: the
files are removed, the DELETE is answered with 204, and a POST is refused. -/
theorem revived_by_get : ∃ w o w',
    sampleMachine.run sampleStart sampleRevival = some (w, o) ∧
      sampleMachine.StepsMeet (Concerns "s") sampleStart sampleRevival ∧ Deleted "s" o ∧
      w.sessions.get? "s" = some 1 ∧ sampleMachine.step w (.post "s") =
        some (w', [.answers 3 (.error 409 "Session already exists")]) := by
  obtain ⟨⟨w, o⟩, hrun, heval⟩ := Option.map_eq_some_iff.mp
    (show (sampleMachine.run sampleStart sampleRevival).map (fun r ↦ (r.2, r.1.sessions.get? "s",
        (sampleMachine.step r.1 (.post "s")).map Prod.snd)) =
      some ([.makes "s" 0, .answers 0 (.summary "s" ⟨0⟩ 0), .closes 1 1001, .answers 2
        (.detail ⟨"s", ⟨0⟩, .sample, none⟩ []), .answers 1 .noContent], some 1,
        some [.answers 3 (.error 409 "Session already exists")]) by decide +kernel)
  obtain ⟨ho, hregistered, hpost⟩ := (Prod.mk.injEq ..).mp heval |>.imp_right
    (Prod.mk.injEq ..).mp
  obtain ⟨⟨w', o'⟩, hstep, rfl⟩ := Option.map_eq_some_iff.mp hpost
  refine ⟨w, o, w', hrun, ?_, ?_, hregistered, hstep⟩
  · refine .cons rfl rfl ?_
    refine .cons rfl trivial ?_
    refine .cons rfl trivial ?_
    refine .cons rfl rfl ?_
    refine .cons rfl ?_ ?_
    · rintro obj ⟨⟩
      rfl
    refine .cons rfl rfl ?_
    refine .cons rfl rfl ?_
    refine .cons rfl trivial ?_
    refine .cons rfl trivial ?_
    exact .cons rfl trivial .nil
  · rw [show o = _ from ho]
    exact ⟨[.makes "s" 0, .answers 0 (.summary "s" ⟨0⟩ 0), .closes 1 1001, .answers 2
      (.detail ⟨"s", ⟨0⟩, .sample, none⟩ [])], 1, [], rfl, fun _ ↦ List.not_mem_nil⟩

end Server
