import ChatServer.Storage.Isolation
import ChatServer.Web.Deletion
import ChatServer.Web.SingleStream

/-!
# Making a session

Several requests may ask for one session at the same time, and all of them find the registry
empty.  What decides between them is the `mkdir` of `create_session`: the directory of the
session is made by one of them, and after that there is no making it again until it is
deleted.  Nothing but a deletion removes a directory (`Step.keepsKinds`), and the deletion of
another plain name leaves it alone (`Input.Spares`).

So at most one request is answered with 201 (`created_once_of_run`), and from then on the
session is known to every route (`Known`).
-/

open FileTree

namespace SessionFileAdapter

section

variable [SessionCodec] {a : SessionFileAdapter} {t t' : FileTree} {s : Session}

theorem keepsKinds_updateSession (t : FileTree) (s : Session) (faults : List (Option Fault)) :
    KeepsKinds t (a.updateSession t s faults).1 := by
  simp only [updateSession]
  split
  · exact keepsKinds_writeSessionFiles t _ s faults
  · exact .refl t

theorem keepsKinds_createSession (t : FileTree) (s : Session) (faults : List (Option Fault)) :
    KeepsKinds t (a.createSession t s faults).1 := by
  rcases createSession_split (a := a) t s faults with ⟨e, e', -, hcreate⟩ |
    ⟨t₁, q, hrun, -, -, hcreate⟩
  · rw [hcreate]
    exact .refl t
  · have hmkdir := KeepsKinds.exec t [.mkdir (a.sessionDir s.id)] faults
    rw [hrun] at hmkdir
    rw [hcreate]
    exact hmkdir.trans (keepsKinds_writeSessionFiles t₁ _ s faults.tail)

/-- A session is made where nothing was, and its directory is there afterwards. -/
theorem isDir_of_createSession {faults : List (Option Fault)}
    (h : a.createSession t s faults = (t', .ok ())) :
    t.pathExists (a.sessionDir s.id) = false ∧ t'.IsDir (a.sessionDir s.id) := by
  rcases createSession_split (a := a) t s faults with ⟨e, e', -, hcreate⟩ |
    ⟨t₁, q, hrun, hq, hdir, hcreate⟩
  · cases h.symm.trans hcreate
  · constructor
    · rw [pathExists]
      split
      · rename_i p hp
        rw [Option.isSome_eq_false_iff, Option.isNone_iff_eq_none]
        by_contra hnode
        obtain ⟨n, hn⟩ := Option.ne_none_iff_exists'.mp hnode
        obtain ⟨e, he⟩ := exec_mkdir_of_node hp hn faults
        cases hrun.symm.trans he
      · rfl
    · have hkeep := keepsKinds_writeSessionFiles t₁ (a.sessionDir s.id) s faults.tail
      rw [← hcreate, h] at hkeep
      exact hkeep.isDir ⟨q, hq, hdir⟩

end

variable {a : SessionFileAdapter} {t : FileTree} {id id' : String}

/-- The deletion of another session leaves the directory of a session where it is. -/
theorem isDir_deleteSession (hid : PlainName id) (hid' : PlainName id') (hne : id' ≠ id)
    (fault : Option (Errno × (List String → Bool))) (h : t.IsDir (a.sessionDir id)) :
    (a.deleteSession t id' fault).1.IsDir (a.sessionDir id) := by
  obtain ⟨hdir, hplain⟩ := plain_sessionDir (a := a) hid
  rw [hdir] at h ⊢
  refine h.congr hplain fun q hq ↦ ?_
  exact node?_deleteSession hid' fault (not_prefix_of_sibling hne (Or.inr hq))

/-- Every directory in the storage directory is listed. -/
theorem getSessionIds_of_isDir (hid : PlainName id) (h : t.IsDir (a.sessionDir id)) :
    ∃ ids, a.getSessionIds t = .ok ids ∧ id ∈ ids := by
  rw [(plain_sessionDir (a := a) hid).1] at h
  obtain ⟨hparent, hdir⟩ := h.node? a.plain hid.ne_dotdot
  exact ⟨t.subdirs a.path, by rw [getSessionIds, hparent], mem_subdirs_iff.mpr hdir⟩

end SessionFileAdapter

namespace App

variable [LlmPortFactory] [SessionCodec] {app : App} {t t' : FileTree} {id : String}
  {now : Datetime} {ref : StatsRef} {faults : List (Option Fault)} {s : Session}

theorem keepsKinds_createSession (app : App) (t : FileTree) (id : String) (now : Datetime)
    (ref : StatsRef) (faults : List (Option Fault)) :
    KeepsKinds t (app.createSession t id now ref faults).1 := by
  unfold createSession
  split
  · exact .refl t
  · rename_i session _
    have hkeep := app.repository.keepsKinds_createSession t session faults
    split <;> rename_i heq <;> rw [heq] at hkeep <;> exact hkeep

theorem isDir_of_createSession (h : app.createSession t id now ref faults = (t', .ok s)) :
    s.id = id ∧ t.pathExists (app.repository.sessionDir id) = false ∧
      t'.IsDir (app.repository.sessionDir id) := by
  unfold createSession at h
  split at h
  · cases h
  · rename_i session hbuild
    have hid : session.id = id := (Built.of_buildSession hbuild).2.1
    split at h
    · cases h
    · rename_i hcreate
      cases h
      have hdir := SessionFileAdapter.isDir_of_createSession hcreate
      rw [hid] at hdir
      exact ⟨hid, hdir⟩

/-- Where something is, `create_uc.execute` fails and changes nothing. -/
theorem createSession_fails {e : PyExc}
    (hexists : t.pathExists (app.repository.sessionDir id) = true)
    (h : app.createSession t id now ref faults = (t', .error e)) : t' = t := by
  unfold createSession at h
  split at h
  · cases h
    rfl
  · rename_i session hbuild
    have hid : session.id = id := (Built.of_buildSession hbuild).2.1
    rw [← hid, pathExists] at hexists
    split at hexists
    · rename_i q hq
      obtain ⟨n, hn⟩ := Option.isSome_iff_exists.mp hexists
      rcases SessionFileAdapter.createSession_split (a := app.repository) t session faults with
        ⟨e, e', -, hcreate⟩ | ⟨t₁, q, hrun, -, -, -⟩
      · rw [hcreate] at h
        cases h
        rfl
      · obtain ⟨e, he⟩ := exec_mkdir_of_node hq hn faults
        cases hrun.symm.trans he
    · cases hexists

end App

/-- A step of the handlers and tasks of an object removes nothing. -/
theorem WsHandler.Step.keepsKinds [UnicodeData] [SessionCodec] {a : SessionFileAdapter}
    {w w' : WsHandler.State} {i : WsHandler.Input} {o : List WsHandler.Obs}
    (hs : WsHandler.Step a w i w' o) : KeepsKinds w.tree w'.tree := by
  rcases hs.tree with hsame | ⟨n, j, faults, task, -, -, -, -, hupdate⟩
  · rw [hsame]
    exact .refl _
  · rw [hupdate]
    exact SessionFileAdapter.keepsKinds_updateSession _ _ _

namespace Server

/-- The input is not the deletion of a session, or of another one under a plain name. -/
def Input.Spares (id : String) : Input → Prop
  | .delete id' _ => PlainName id' ∧ id' ≠ id
  | _ => True

/-- A request has made the session, and has told so or is going to. -/
def Won (w : Server) (id : String) (o : List Obs) (r : ℕ) : Prop :=
  (∃ k, w.At r (.created id k)) ∨ ∃ createdAt n, .answers r (.summary id createdAt n) ∈ o

section

variable [UnicodeData] [SessionCodec] [LlmPortFactory] {app : App} {w w' : Server} {i : Input}
  {o o' : List Obs} {r k : ℕ} {id : String}

/-- Only a deletion removes anything. -/
theorem Step.keepsKinds (hs : Step app w i w' o) : KeepsKinds w.tree w'.tree ∨
    ∃ id fault, ((∃ fault, i = .delete id fault) ∨ w.Deleting id) ∧
      w'.tree = (app.repository.deleteSession w.tree id fault).1 := by
  have hconnect (obj : Held) : KeepsKinds w.tree (obj.onTree w.tree).connect.tree := by
    have hstep : WsHandler.Step app.repository (obj.onTree w.tree) .connects
        (obj.onTree w.tree).connect [] := connect_step obj w.tree
    exact hstep.keepsKinds
  cases hs with
  | delete id fault => exact Or.inr ⟨id, fault, Or.inl ⟨fault, rfl⟩, rfl⟩
  | closedDelete r id fault hr => exact Or.inr ⟨id, fault, Or.inr ⟨r, hr⟩, rfl⟩
  | creates r id now ref faults tree session o hr hcreate ho =>
      have hkeep := app.keepsKinds_createSession w.tree id now ref faults
      rw [hcreate] at hkeep
      exact Or.inl hkeep
  | createsFails r id now ref faults tree e o ob hr hcreate ho hob =>
      have hkeep := app.keepsKinds_createSession w.tree id now ref faults
      rw [hcreate] at hkeep
      exact Or.inl hkeep
  | loadFails r id loader ref e hr hget =>
      left
      rw [tree_onLoadFails]
      exact .refl _
  | connectHeld id k obj held hobj => exact Or.inl (hconnect obj)
  | resumesConnect r id k obj hr hobj => exact Or.inl (hconnect obj)
  | object k i obj c o hi hobj hstep => exact Or.inl hstep.keepsKinds
  | _ => exact Or.inl (.refl _)

/-- An object stays that of its session. -/
theorem Step.kept_object (hs : Step app w i w' o) {obj : Held} (hobj : w.objects[k]? = some obj) :
    ∃ obj', w'.objects[k]? = some obj' ∧ obj'.sc.session.id = obj.sc.session.id := by
  obtain ⟨obj', hobj', rfl | ⟨j, c, o', hstep, rfl⟩⟩ := hs.object_moves hobj
  · exact ⟨obj', hobj', rfl⟩
  · exact ⟨.of c, hobj', hstep.session_id⟩

/-- A request that has made a session had done so before, or does it now. -/
theorem Step.created (hs : Step app w i w' o) (h : w'.At r (.created id k)) :
    w.At r (.created id k) ∨ k = w.objects.length ∧ ∃ now ref faults session,
      i = .creates r now ref faults ∧
        app.createSession w.tree id now ref faults = (w'.tree, .ok session) ∧
          w'.objects[k]? = some (.fresh session) := by
  rcases hs.request h with hsame | hturns
  · exact Or.inl hsame
  · cases hturns with
    | released i hnone => cases hnone
    | brings hbrings =>
        cases hbrings with
        | creates r' now ref faults tree session hr hcreate =>
            cases hs with
            | createsFails _ id' _ _ _ tree' e o ob hr' hcreate' ho hob =>
                cases Option.some.inj (hr.symm.trans hr')
                cases hcreate.symm.trans hcreate'
            | creates _ id' _ _ _ tree' session' o hr' hcreate' ho =>
                cases Option.some.inj (hr.symm.trans hr')
                obtain ⟨rfl, hsession⟩ := Prod.mk.inj (hcreate.symm.trans hcreate')
                cases hsession
                rcases (at_setRequest hr).mp h with ⟨rfl, -⟩ | ⟨-, hsame⟩
                · refine Or.inr ⟨rfl, now, ref, faults, session, rfl, hcreate, ?_⟩
                  exact List.getElem?_concat_iff.mpr (Or.inr ⟨rfl, rfl⟩)
                · exact Or.inl hsame

/-- Who is answered with 201 had made the session, and has it registered. -/
theorem created_of_summary {createdAt : Datetime} {n : ℕ}
    (hs : step app w i = some (w', o)) (hmem : .answers r (.summary id createdAt n) ∈ o)
    (hnamed : ∀ r id k, w.At r (.created id k) →
      ∃ obj, w.objects[k]? = some obj ∧ obj.sc.session.id = id) :
    ∃ k, w.At r (.created id k) ∧ w'.sessions.get? id = some k ∧ w'.objects = w.objects ∧
      ∃ obj, w.objects[k]? = some obj ∧ obj.sc.session.id = id ∧
        obj.sc.session.createdAt = createdAt := by
  have hresumes : ∃ id' k, i = .resumes r ∧ w.At r (.created id' k) := by
    have hnot : ∀ {ob : Obs}, .answers r (.summary id createdAt n) ∈ [ob] →
        (∀ r s a n, ob ≠ .answers r (.summary s a n)) → False :=
      fun hmem hne ↦ hne _ _ _ _ (List.mem_singleton.mp hmem).symm
    cases Step.of_step hs with
    | resumesCreated r' id' k obj hr =>
        cases List.mem_singleton.mp hmem
        exact ⟨id', k, rfl, hr⟩
    | getHeld id' route obj => cases route <;> exact (hnot hmem nofun).elim
    | resumesGet r' id' route k obj hr => cases route <;> exact (hnot hmem nofun).elim
    | postInvalid | postTaken id' k taken | list ids | listFails e | deleteConnected id' fault
    | accepted r' code hr => exact (hnot hmem nofun).elim
    | delete id' fault | closedDelete r' id' fault hr =>
        unfold deleteReply at hmem
        split at hmem <;> exact (hnot hmem nofun).elim
    | creates r' id' now ref faults tree session o hr hcreate ho =>
        rw [ho] at hmem
        exact (hnot (List.mem_ite_nil_right.mp hmem).2 nofun).elim
    | createsFails r' id' now ref faults tree e o ob hr hcreate ho hob =>
        rcases List.mem_append.mp hmem with hmem | hmem
        · rw [ho] at hmem
          exact (hnot (List.mem_ite_nil_right.mp hmem).2 nofun).elim
        · rcases hob with ⟨message, -, rfl⟩ | rfl | rfl <;> exact (hnot hmem nofun).elim
    | loadFails r' id' loader ref e hr hget =>
        cases e with
        | storageError message original =>
            cases loader with
            | get route => exact (hnot hmem nofun).elim
            | connect => cases hmem
        | raised e =>
            cases e <;> cases loader
            all_goals first
              | exact (hnot hmem nofun).elim
              | cases hmem
    | object k i obj c o hi hobj hstep =>
        obtain ⟨ob', -, hob⟩ := List.mem_map.mp hmem
        cases hob
    | _ => cases hmem
  obtain ⟨id', k, rfl, hr⟩ := hresumes
  obtain ⟨obj, hobj, hid⟩ := hnamed r id' k hr
  simp only [step, show w.requests[r]? = _ from hr, onResumes, hobj, Option.map_some,
    Option.some.injEq, Prod.mk.injEq] at hs
  obtain ⟨rfl, rfl⟩ := hs
  cases List.mem_singleton.mp hmem
  rw [hid]
  exact ⟨k, hr, OrderedDict.get?_set_self .., rfl, obj, hobj, hid, rfl⟩

/-- A session stays registered until it is deleted, with its object or with one that was
pending. -/
theorem Step.stays_registered (hs : Step app w i w' o) (hi : ∀ fault, i ≠ .delete id fault)
    (h : w.sessions.get? id = some k) :
    ∃ k', w'.sessions.get? id = some k' ∧ (k' = k ∨ w.Pending id k') := by
  have hregister : ∀ {r phase id' k'}, w.At r phase → phase.object? = some (id', k') →
      ∃ k'', (w.register id' k').sessions.get? id = some k'' ∧ (k'' = k ∨ w.Pending id k'') := by
    intro r phase id' k' hat hobject
    by_cases heq : id' = id
    · subst heq
      exact ⟨k', OrderedDict.get?_set_self .., Or.inr ⟨r, phase, hat, hobject⟩⟩
    · exact ⟨k, (OrderedDict.get?_set_of_ne _ _ heq).trans h, Or.inl rfl⟩
  have hunregister : ∀ id' fault, i = .delete id' fault →
      (w.unregister id').sessions.get? id = some k := by
    rintro id' fault rfl
    have hne : id ≠ id' := by
      rintro rfl
      exact hi fault rfl
    rw [unregister, OrderedDict.get?_filterKeys, if_pos (by simpa using hne), h]
  cases hs with
  | delete id' fault | deleteConnected id' fault =>
      exact ⟨k, hunregister id' fault rfl, Or.inl rfl⟩
  | resumesCreated r id' k' obj hr => exact hregister hr rfl
  | resumesGet r id' route k' obj hr => exact hregister hr rfl
  | resumesConnect r id' k' obj hr hobj => exact hregister hr rfl
  | loadFails r id' loader ref e hr hget =>
      rw [sessions_onLoadFails]
      exact ⟨k, h, Or.inl rfl⟩
  | _ => exact ⟨k, h, Or.inl rfl⟩

theorem Step.object_of_brings {phase : RequestPhase} (hs : Step app w i w' o)
    (hbrings : Brings app w id i phase) : ∃ obj, w'.objects[w.objects.length]? = some obj := by
  have hconcat : ∀ session, ∃ obj, (w.objects ++ [Held.fresh session])[w.objects.length]? =
      some obj :=
    fun session ↦ ⟨_, List.getElem?_concat_iff.mpr (Or.inr ⟨rfl, rfl⟩)⟩
  cases hbrings with
  | creates r now ref faults tree session hr hcreate =>
      cases hs with
      | creates _ id' _ _ _ tree' session' o hr' hcreate' ho => exact hconcat session'
      | createsFails _ id' _ _ _ tree' e o ob hr' hcreate' ho hob =>
          cases Option.some.inj (hr.symm.trans hr')
          cases hcreate.symm.trans hcreate'
  | loads r loader ref session hr hget =>
      cases hs with
      | loads _ id' loader' _ session' hr' hget' => exact hconcat session'
      | loadFails _ id' loader' _ e hr' hget' =>
          cases Option.some.inj (hr.symm.trans hr')
          rw [hget] at hget'
          cases hget'

/-! ## The invariant -/

/-- At most one request has made the session; its directory is there, and once the request
is answered the session is registered. -/
structure Settling (app : App) (id : String) (w : Server) (o : List Obs) : Prop where
  spared : ∀ r id', w.At r (.deleting id') → PlainName id' ∧ id' ≠ id
  named : ∀ r id' k, w.At r (.created id' k) →
    ∃ obj, w.objects[k]? = some obj ∧ obj.sc.session.id = id'
  held : ∀ k, w.sessions.get? id = some k ∨ w.Pending id k → ∃ obj, w.objects[k]? = some obj
  unique : ∀ r r', w.Won id o r → w.Won id o r' → r = r'
  isDir : ∀ r, w.Won id o r → w.tree.IsDir (app.repository.sessionDir id)
  registered : ∀ r createdAt n, .answers r (.summary id createdAt n) ∈ o →
    ∃ k, w.sessions.get? id = some k

omit [UnicodeData] [SessionCodec] [LlmPortFactory] in
theorem settling_start (app : App) (id : String) (t : FileTree) :
    Settling app id (start t) [] := by
  have hwon : ∀ r, ¬ (start t).Won id [] r := by
    rintro r (⟨k, hat⟩ | ⟨createdAt, n, hmem⟩)
    · cases hat
    · cases hmem
  constructor
  · intro r id' hat
    cases hat
  · intro r id' k hat
    cases hat
  · rintro k (hget | ⟨r, phase, hat, -⟩)
    · cases hget
    · cases hat
  · exact fun r r' h ↦ absurd h (hwon r)
  · exact fun r h ↦ absurd h (hwon r)
  · intro r createdAt n hmem
    cases hmem

/-- Who wins in a step had won, or makes the session where there was none. -/
theorem Settling.won (hw : Settling app id w o) (hs : step app w i = some (w', o'))
    (h : w'.Won id (o ++ o') r) : w.Won id o r ∨
      w.tree.pathExists (app.repository.sessionDir id) = false ∧
        w'.tree.IsDir (app.repository.sessionDir id) ∧
          ∃ now ref faults, i = .creates r now ref faults := by
  rcases h with ⟨k, hat⟩ | ⟨createdAt, n, hmem⟩
  · rcases (Step.of_step hs).created hat with hsame |
      ⟨-, now, ref, faults, session, rfl, hcreate, -⟩
    · exact Or.inl (Or.inl ⟨k, hsame⟩)
    · obtain ⟨-, hbefore, hafter⟩ := App.isDir_of_createSession hcreate
      exact Or.inr ⟨hbefore, hafter, now, ref, faults, rfl⟩
  · rcases List.mem_append.mp hmem with hmem | hmem
    · exact Or.inl (Or.inr ⟨createdAt, n, hmem⟩)
    · obtain ⟨k, hat, -⟩ := created_of_summary hs hmem hw.named
      exact Or.inl (Or.inl ⟨k, hat⟩)

/-- **One step** that spares the session. -/
theorem Settling.step (hid : PlainName id) (hw : Settling app id w o)
    (hs : step app w i = some (w', o')) (hi : i.Spares id) : Settling app id w' (o ++ o') := by
  have hstep := Step.of_step hs
  have hdelete : ∀ fault, i ≠ .delete id fault := by
    rintro fault rfl
    exact hi.2 rfl
  -- the directory is left alone by whatever is deleted
  have hdir : w.tree.IsDir (app.repository.sessionDir id) →
      w'.tree.IsDir (app.repository.sessionDir id) := by
    intro h
    rcases hstep.keepsKinds with hkeep | ⟨id', fault, hwhich, htree⟩
    · exact hkeep.isDir h
    · have hspared : PlainName id' ∧ id' ≠ id := by
        rcases hwhich with ⟨fault', rfl⟩ | ⟨r, hat⟩
        · exact hi
        · exact hw.spared r id' hat
      rw [htree]
      exact SessionFileAdapter.isDir_deleteSession hid hspared.1 hspared.2 fault h
  constructor
  · intro r id' hat
    rcases hstep.deleting ⟨r, hat⟩ with ⟨r', hat'⟩ | ⟨fault, rfl⟩
    · exact hw.spared r' id' hat'
    · exact hi
  · intro r id' k hat
    rcases hstep.created hat with hsame | ⟨-, now, ref, faults, session, rfl, hcreate, hobj⟩
    · obtain ⟨obj, hobj, rfl⟩ := hw.named r id' k hsame
      exact hstep.kept_object hobj
    · exact ⟨_, hobj, (App.isDir_of_createSession hcreate).1⟩
  · intro k href
    have hbefore : (w.sessions.get? id = some k ∨ w.Pending id k) ∨
        k = w.objects.length ∧ ∃ phase, Brings app w id i phase := by
      rcases href with hget | hpending
      · exact Or.inl ((hstep.registered hget).imp_left And.right)
      · exact (hstep.pending hpending).imp_left Or.inr
    rcases hbefore with href | ⟨rfl, phase, hbrings⟩
    · obtain ⟨obj, hobj⟩ := hw.held k href
      obtain ⟨obj', hobj', -⟩ := hstep.kept_object hobj
      exact ⟨obj', hobj'⟩
    · exact hstep.object_of_brings hbrings
  · -- nobody had won if somebody wins now
    intro r r' hwon hwon'
    rcases hw.won hs hwon with hold | ⟨hnone, -, now, ref, faults, rfl⟩ <;>
      rcases hw.won hs hwon' with hold' | ⟨hnone', -, now', ref', faults', hinput⟩
    · exact hw.unique r r' hold hold'
    · cases (hw.isDir r hold).pathExists.symm.trans hnone'
    · cases (hw.isDir r' hold').pathExists.symm.trans hnone
    · cases hinput
      rfl
  · intro r hwon
    rcases hw.won hs hwon with hold | ⟨-, hafter, -⟩
    · exact hdir (hw.isDir r hold)
    · exact hafter
  · intro r createdAt n hmem
    rcases List.mem_append.mp hmem with hmem | hmem
    · obtain ⟨k, hk⟩ := hw.registered r createdAt n hmem
      obtain ⟨k', hk', -⟩ := hstep.stays_registered hdelete hk
      exact ⟨k', hk'⟩
    · obtain ⟨k, -, hk, -⟩ := created_of_summary hs hmem hw.named
      exact ⟨k, hk⟩

theorem settling_of_run (hid : PlainName id) {t : FileTree} {is : List Input}
    (h : (machine app).run (.start t) is = some (w, o)) (hspares : ∀ i ∈ is, i.Spares id) :
    Settling app id w o := by
  refine Mealy.run_induction_of_steps (P := fun _ w o ↦ Settling app id w o)
    (Q := fun _ i ↦ i.Spares id) (settling_start app id t) ?_ h ?_
  · exact fun _ w o i w' o' hw hi hs ↦ hw.step hid hs hi
  · intro js i w₁ o₁ hp _
    have hi : i ∈ is := Mealy.mem_of_concat_prefix hp
    exact hspares i hi

/-- However many requests for a session there are at the same time, and whatever else
happens, at most one of them is answered with 201 unless the session is deleted. -/
theorem created_once_of_run (hid : PlainName id) {t : FileTree} {is : List Input}
    (h : (machine app).run (.start t) is = some (w, o)) (hspares : ∀ i ∈ is, i.Spares id)
    {r r' : ℕ} {createdAt createdAt' : Datetime} {n n' : ℕ}
    (hr : .answers r (.summary id createdAt n) ∈ o)
    (hr' : .answers r' (.summary id createdAt' n') ∈ o) : r = r' :=
  (settling_of_run hid h hspares).unique r r' (Or.inr ⟨createdAt, n, hr⟩)
    (Or.inr ⟨createdAt', n', hr'⟩)

/-! ## What is known of a session that was made -/

/-- Every route knows the session: the one that is registered is shown, it is listed, not made
a second time, and a request that was already on its way to make it ends without having
changed anything. -/
structure Known (app : App) (id : String) (w : Server) : Prop where
  get : ∃ k obj, w.sessions.get? id = some k ∧ w.objects[k]? = some obj ∧
    ∀ route, step app w (.get id route) =
      some (w.addRequest .ended, [.answers w.requests.length (route.show obj.sc.session)])
  list : ∃ ids, id ∈ ids ∧ step app w .list =
    some (w.addRequest .ended, [.answers w.requests.length (.ids ids)])
  post : step app w (.post id) = some (w.addRequest .ended,
    [.answers w.requests.length (.error 409 "Session already exists")])
  creates : ∀ r now ref faults w' o, w.At r (.creating id) →
    step app w (.creates r now ref faults) = some (w', o) →
      w'.At r .ended ∧ w'.tree = w.tree ∧ w'.sessions = w.sessions ∧ ∀ k, .makes id k ∉ o

theorem Known.of_held (hid : PlainName id) {obj : Held} (hget : w.sessions.get? id = some k)
    (hobj : w.objects[k]? = some obj) (hdir : w.tree.IsDir (app.repository.sessionDir id)) :
    Known app id w where
  get := by
    refine ⟨k, obj, hget, hobj, fun route ↦ ?_⟩
    simp only [step, onGet, hget, hobj, Option.map_some]
  list := by
    obtain ⟨ids, hids, hmem⟩ := SessionFileAdapter.getSessionIds_of_isDir hid hdir
    refine ⟨ids, hmem, ?_⟩
    simp only [step, onList, hids]
  post := by
    simp only [step, onPost, if_neg hid.ne_empty, hget]
  creates := by
    intro r now ref faults w' o hr hs
    cases Step.of_step hs with
    | creates _ id' _ _ _ tree session _ hr' hcreate ho =>
        cases Option.some.inj (hr.symm.trans hr')
        obtain ⟨-, hbefore, -⟩ := App.isDir_of_createSession hcreate
        cases hdir.pathExists.symm.trans hbefore
    | createsFails _ id' _ _ _ tree e o ob hr' hcreate ho hob =>
        cases Option.some.inj (hr.symm.trans hr')
        obtain rfl := App.createSession_fails hdir.pathExists hcreate
        refine ⟨(at_setRequest hr).mpr (Or.inl ⟨rfl, rfl⟩), rfl, rfl, fun k hmem ↦ ?_⟩
        rcases List.mem_append.mp hmem with hmem | hmem
        · rw [ho] at hmem
          exact (List.mem_ite_nil_right.mp hmem).1.1 hdir.pathExists
        · rcases hob with ⟨message, -, rfl⟩ | rfl | rfl <;> cases List.mem_singleton.mp hmem

end

/-! ## A run to evaluate -/

/-- Two clients ask for one session at the same time, and another one is deleted. -/
def sampleRace : List Input :=
  [.post "s", .post "s", .creates 1 ⟨0⟩ ⟨0⟩ [], .delete "t" none, .creates 0 ⟨1⟩ ⟨1⟩ [],
    .resumes 1]

theorem spares_sampleRace : ∀ i ∈ sampleRace, i.Spares "s" := by
  simp only [sampleRace, List.forall_mem_cons]
  exact ⟨trivial, trivial, trivial, ⟨by decide, by decide⟩, trivial, trivial, List.forall_mem_nil _⟩

/-- The first of them is told that the session is already there. -/
theorem created_once_sampleRace : ∃ w o,
    sampleMachine.run sampleStart sampleRace = some (w, o) ∧
      .answers 0 (.error 409 "Session already exists on disk") ∈ o ∧
      .answers 1 (.summary "s" ⟨0⟩ 0) ∈ o ∧
      ∀ r createdAt n, .answers r (.summary "s" createdAt n) ∈ o → r = 1 := by
  obtain ⟨⟨w, o⟩, hrun, ho⟩ := Option.map_eq_some_iff.mp
    (show (sampleMachine.run sampleStart sampleRace).map Prod.snd =
      some [.makes "s" 0, .answers 2 .noContent,
        .answers 0 (.error 409 "Session already exists on disk"),
        .answers 1 (.summary "s" ⟨0⟩ 0)] from rfl)
  obtain rfl : o = _ := ho
  have hone : Obs.answers 1 (.summary "s" ⟨0⟩ 0) ∈ [Obs.makes "s" 0, .answers 2 .noContent,
      .answers 0 (.error 409 "Session already exists on disk"),
      .answers 1 (.summary "s" ⟨0⟩ 0)] := by simp
  refine ⟨w, _, hrun, by simp, hone, fun r createdAt n hr ↦ ?_⟩
  exact @created_once_of_run .asciiOnly App.sampleCodec App.sampleFactory App.sample w _ "s"
    (by decide) App.sampleTree sampleRace hrun spares_sampleRace r 1 createdAt ⟨0⟩ n 0 hr hone

end Server
