import ChatServer.Web.Server

/-!
# What a step of the server can do

`Server.Step` lists the transitions of the machine of `ChatServer.Web.Server` with their
guards, and `Step.of_step` is the inversion of the step function.  The last section tells
what a step does to the requests and to the registry: who refers to an object, and under
which identifier.
-/

open FileTree

namespace Server

/-- A request is suspended in a phase. -/
def At (w : Server) (r : ℕ) (phase : RequestPhase) : Prop := w.requests[r]? = some phase

/-- The transitions of the server. -/
inductive Step [UnicodeData] [SessionCodec] [LlmPortFactory] (app : App) (w : Server) :
    Input → Server → List Obs → Prop where
  | postInvalid : Step app w (.post "") (w.addRequest .ended)
      [.answers w.requests.length (.error 422 "String should have at least 1 character")]
  | postTaken (id : String) (k : ℕ) (taken : w.sessions.get? id = some k) :
      Step app w (.post id) (w.addRequest .ended)
        [.answers w.requests.length (.error 409 "Session already exists")]
  | post (id : String) (free : w.sessions.get? id = none) :
      Step app w (.post id) (w.addRequest (.creating id)) []
  | getHeld (id : String) (route : GetRoute) (obj : Held) :
      Step app w (.get id route) (w.addRequest .ended)
        [.answers w.requests.length (route.show obj.sc.session)]
  | get (id : String) (route : GetRoute) :
      Step app w (.get id route) (w.addRequest (.loading id (.get route))) []
  | list (ids : List String) : Step app w .list (w.addRequest .ended)
      [.answers w.requests.length (.ids ids)]
  | listFails (e : PyExc) : Step app w .list (w.addRequest .ended)
      [.raises w.requests.length e]
  | connectHeld (id : String) (k : ℕ) (obj : Held) (held : w.sessions.get? id = some k)
      (hobj : w.objects[k]? = some obj) :
      Step app w (.connect id) (w.setObject k (obj.onTree w.tree).connect) []
  | connect (id : String) : Step app w (.connect id) (w.addRequest (.loading id .connect)) []
  | deleteConnected (id : String) (fault : Option (Errno × (List String → Bool))) :
      Step app w (.delete id fault) ((w.unregister id).addRequest (.deleting id))
        [.closes w.requests.length 1001]
  | delete (id : String) (fault : Option (Errno × (List String → Bool))) :
      Step app w (.delete id fault)
        { (w.unregister id).addRequest .ended with
          tree := (app.repository.deleteSession w.tree id fault).1 }
        [deleteReply w.requests.length id (app.repository.deleteSession w.tree id fault).2]
  | creates (r : ℕ) (id : String) (now : Datetime) (ref : StatsRef)
      (faults : List (Option Fault)) (tree : FileTree) (session : Session) (o : List Obs)
      (hr : w.At r (.creating id))
      (hcreate : app.createSession w.tree id now ref faults = (tree, .ok session))
      (ho : o = if ¬ w.tree.pathExists (app.repository.sessionDir id) ∧
        tree.pathExists (app.repository.sessionDir id) then [.makes id w.objects.length] else []) :
      Step app w (.creates r now ref faults)
        (({ w with tree }.addObject session).setRequest r (.created id w.objects.length)) o
  | createsFails (r : ℕ) (id : String) (now : Datetime) (ref : StatsRef)
      (faults : List (Option Fault)) (tree : FileTree) (e : PyExc) (o : List Obs) (ob : Obs)
      (hr : w.At r (.creating id))
      (hcreate : app.createSession w.tree id now ref faults = (tree, .error e))
      (ho : o = if ¬ w.tree.pathExists (app.repository.sessionDir id) ∧
        tree.pathExists (app.repository.sessionDir id) then [.makes id w.objects.length] else [])
      (hob : (∃ message, e = .fileExistsError message ∧
          ob = .answers r (.error 409 "Session already exists on disk")) ∨
        ob = .raises r e ∨ ob = .answers r (.error 500 s!"Failed to save session: {e.str}")) :
      Step app w (.creates r now ref faults) ({ w with tree }.setRequest r .ended) (o ++ [ob])
  | loads (r : ℕ) (id : String) (loader : Loader) (ref : StatsRef) (session : Session)
      (hr : w.At r (.loading id loader)) (hget : app.getSession w.tree id ref = .ok session) :
      Step app w (.loads r ref)
        ((w.addObject session).setRequest r (.loaded id loader w.objects.length)) []
  | loadFails (r : ℕ) (id : String) (loader : Loader) (ref : StatsRef) (e : WebExc)
      (hr : w.At r (.loading id loader))
      (hget : handleStorageErrors "Failed to load" id (app.getSession w.tree id ref) = .error e) :
      Step app w (.loads r ref) (w.onLoadFails r e loader).1 (w.onLoadFails r e loader).2
  | resumesCreated (r : ℕ) (id : String) (k : ℕ) (obj : Held) (hr : w.At r (.created id k)) :
      Step app w (.resumes r) ((w.register id k).setRequest r .ended)
        [.answers r (.summary obj.sc.session.id obj.sc.session.createdAt 0)]
  | resumesGet (r : ℕ) (id : String) (route : GetRoute) (k : ℕ) (obj : Held)
      (hr : w.At r (.loaded id (.get route) k)) :
      Step app w (.resumes r) ((w.register id k).setRequest r .ended)
        [.answers r (route.show obj.sc.session)]
  | resumesConnect (r : ℕ) (id : String) (k : ℕ) (obj : Held)
      (hr : w.At r (.loaded id .connect k)) (hobj : w.objects[k]? = some obj) :
      Step app w (.resumes r)
        (((w.register id k).setRequest r .ended).setObject k (obj.onTree w.tree).connect) []
  | closedDelete (r : ℕ) (id : String) (fault : Option (Errno × (List String → Bool)))
      (hr : w.At r (.deleting id)) :
      Step app w (.closed r fault)
        { w.setRequest r .ended with
          tree := (app.repository.deleteSession w.tree id fault).1 }
        [deleteReply r id (app.repository.deleteSession w.tree id fault).2]
  | closed (r : ℕ) (fault : Option (Errno × (List String → Bool))) (hr : w.At r .closing) :
      Step app w (.closed r fault) (w.setRequest r .ended) []
  | accepted (r : ℕ) (code : ℕ) (hr : w.At r (.refusing code)) :
      Step app w (.accepted r) (w.setRequest r .closing) [.closes r code]
  | acceptFails (r : ℕ) (code : ℕ) (hr : w.At r (.refusing code)) :
      Step app w (.acceptFails r) (w.setRequest r .ended) []
  | object (k : ℕ) (i : WsHandler.Input) (obj : Held) (c : WsHandler.State)
      (o : List WsHandler.Obs) (hi : i ≠ .connects) (hobj : w.objects[k]? = some obj)
      (hstep : WsHandler.Step app.repository (obj.onTree w.tree) i c o) :
      Step app w (.object k i) (w.setObject k c) (o.map (.object k))

section

variable [UnicodeData] [SessionCodec] [LlmPortFactory] {app : App} {w w' : Server}
  {o : List Obs}

theorem Step.of_onDelete {id : String} {fault : Option (Errno × (List String → Bool))}
    (hs : w.onDelete app id fault = some (w', o)) : Step app w (.delete id fault) w' o := by
  simp only [onDelete] at hs
  split at hs
  · obtain ⟨obj, -, heq⟩ := Option.map_eq_some_iff.mp hs
    split at heq
    · cases heq
      exact .deleteConnected id fault
    · cases heq
      exact .delete id fault
  · cases hs
    exact .delete id fault

theorem Step.of_onCreates {r : ℕ} {id : String} {now : Datetime} {ref : StatsRef}
    {faults : List (Option Fault)} (hr : w.At r (.creating id))
    (hs : w.onCreates app r id now ref faults = (w', o)) :
    Step app w (.creates r now ref faults) w' o := by
  simp only [onCreates] at hs
  cases hcreate : app.createSession w.tree id now ref faults with
  | mk tree outcome =>
      rw [hcreate] at hs
      cases outcome with
      | ok session =>
          cases hs
          exact .creates r id now ref faults tree session _ hr hcreate rfl
      | error e =>
          cases e with
          | fileExistsError message =>
              cases hs
              exact .createsFails r id now ref faults tree _ _ _ hr hcreate rfl
                (Or.inl ⟨message, rfl, rfl⟩)
          | permissionError message | osError message | valueError message =>
              cases hs
              exact .createsFails r id now ref faults tree _ _ _ hr hcreate rfl
                (Or.inr (Or.inr rfl))
          | _ =>
              cases hs
              exact .createsFails r id now ref faults tree _ _ _ hr hcreate rfl
                (Or.inr (Or.inl rfl))

theorem Step.of_onResumes {r : ℕ} {phase : RequestPhase} (hr : w.At r phase)
    (hs : w.onResumes r phase = some (w', o)) : Step app w (.resumes r) w' o := by
  cases phase with
  | created id k =>
      obtain ⟨obj, -, heq⟩ := Option.map_eq_some_iff.mp hs
      cases heq
      exact .resumesCreated r id k obj hr
  | loaded id loader k =>
      cases loader with
      | get route =>
          obtain ⟨obj, -, heq⟩ := Option.map_eq_some_iff.mp hs
          cases heq
          exact .resumesGet r id route k obj hr
      | connect =>
          obtain ⟨w₁, hconnect, heq⟩ := Option.map_eq_some_iff.mp hs
          obtain ⟨obj, hobj, rfl⟩ := Option.map_eq_some_iff.mp hconnect
          cases heq
          exact .resumesConnect r id k obj hr hobj
  | _ => cases hs

/-- Inversion of the step function. -/
theorem Step.of_step {i : Input} (hs : step app w i = some (w', o)) : Step app w i w' o := by
  cases i with
  | post id =>
      simp only [step, onPost, Option.some.injEq] at hs
      split at hs
      · rename_i hid
        subst hid
        cases hs
        exact .postInvalid
      · split at hs
        · rename_i k hk
          cases hs
          exact .postTaken id k hk
        · rename_i hfree
          cases hs
          exact .post id hfree
  | get id route =>
      simp only [step, onGet] at hs
      split at hs
      · obtain ⟨obj, -, heq⟩ := Option.map_eq_some_iff.mp hs
        cases heq
        exact .getHeld id route obj
      · cases hs
        exact .get id route
  | list =>
      simp only [step, onList, Option.some.injEq] at hs
      split at hs
      · cases hs
        exact .list _
      · cases hs
        exact .listFails _
  | delete id fault => exact .of_onDelete hs
  | connect id =>
      simp only [step, onConnect] at hs
      split at hs
      · rename_i k hk
        obtain ⟨w₁, hconnect, heq⟩ := Option.map_eq_some_iff.mp hs
        obtain ⟨obj, hobj, rfl⟩ := Option.map_eq_some_iff.mp hconnect
        cases heq
        exact .connectHeld id k obj hk hobj
      · cases hs
        exact .connect id
  | creates r now ref faults =>
      simp only [step] at hs
      split at hs
      · rename_i id hr
        exact .of_onCreates hr (Option.some.inj hs)
      · cases hs
  | loads r ref =>
      simp only [step] at hs
      split at hs
      · rename_i id loader hr
        simp only [onLoads, Option.some.injEq] at hs
        split at hs
        · rename_i session hget
          cases hs
          exact .loads r id loader ref session hr (handleStorageErrors_eq_ok.mp hget)
        · rename_i e hget
          have hstep : Step app w (.loads r ref) _ _ := .loadFails r id loader ref e hr hget
          rw [hs] at hstep
          exact hstep
      · cases hs
  | resumes r =>
      simp only [step] at hs
      split at hs
      · rename_i phase hr
        exact .of_onResumes hr hs
      · cases hs
  | closed r fault =>
      simp only [step] at hs
      split at hs
      · rename_i id hr
        cases hs
        exact .closedDelete r id fault hr
      · rename_i hr
        cases hs
        exact .closed r fault hr
      · cases hs
  | accepted r =>
      simp only [step] at hs
      split at hs
      · rename_i code hr
        cases hs
        exact .accepted r code hr
      · cases hs
  | acceptFails r =>
      simp only [step] at hs
      split at hs
      · rename_i code hr
        cases hs
        exact .acceptFails r code hr
      · cases hs
  | object k i =>
      have hobject : i ≠ .connects → Step app w (.object k i) w' o := by
        intro hi
        cases hobj : w.objects[k]? with
        | none => cases i <;> simp [step, hobj] at hs
        | some obj =>
            have hmap : (WsHandler.step app.repository (obj.onTree w.tree) i).map (fun r ↦
                (w.setObject k r.1, r.2.map (.object k))) = some (w', o) := by
              cases i with
              | connects => exact absurd rfl hi
              | handler h i | stream n i faults =>
                  simp only [step, hobj] at hs
                  exact hs
            obtain ⟨⟨c, o'⟩, hstep, heq⟩ := Option.map_eq_some_iff.mp hmap
            cases heq
            exact .object k i obj c o' hi hobj (.of_step hstep)
      apply hobject
      rintro rfl
      cases hs

end

end Server

/-! ## Who refers to an object -/

namespace RequestPhase

/-- The identifier of a request that is not over. -/
def id? : RequestPhase → Option String
  | creating id | created id _ | loading id _ | loaded id _ _ | deleting id => some id
  | refusing _ | closing | ended => none

/-- The object a request has made and not yet registered. -/
def object? : RequestPhase → Option (String × ℕ)
  | created id k | loaded id _ k => some (id, k)
  | _ => none

theorem object?_of_id? {phase : RequestPhase} (h : phase.id? = none) : phase.object? = none := by
  cases phase <;> first | rfl | cases h

end RequestPhase

namespace Server

/-- An observation that is neither the making of a directory nor a 204. -/
def Obs.Ordinary : Obs → Prop
  | .makes .. | .answers _ .noContent => False
  | _ => True

/-- A request has made an object and not yet registered it. -/
def Pending (w : Server) (id : String) (k : ℕ) : Prop :=
  ∃ r phase, w.At r phase ∧ phase.object? = some (id, k)

/-- A request waits for the socket of a session it deletes. -/
def Deleting (w : Server) (id : String) : Prop := ∃ r, w.At r (.deleting id)

theorem at_addRequest {w : Server} {r : ℕ} {new phase : RequestPhase} :
    (w.addRequest new).At r phase ↔ w.At r phase ∨ r = w.requests.length ∧ phase = new :=
  List.getElem?_concat_iff

theorem at_setRequest {w : Server} {r r' : ℕ} {old new phase : RequestPhase} (hr : w.At r old) :
    (w.setRequest r new).At r' phase ↔ r' = r ∧ phase = new ∨ r' ≠ r ∧ w.At r' phase :=
  List.getElem?_set_iff hr

/-- The body of an `execute` makes an object for an identifier. -/
inductive Brings [SessionCodec] [LlmPortFactory] (app : App) (w : Server) (id : String) :
    Input → RequestPhase → Prop where
  | creates (r : ℕ) (now : Datetime) (ref : StatsRef) (faults : List (Option Fault))
      (tree : FileTree) (session : Session) (hr : w.At r (.creating id))
      (hcreate : app.createSession w.tree id now ref faults = (tree, .ok session)) :
      Brings app w id (.creates r now ref faults) (.created id w.objects.length)
  | loads (r : ℕ) (loader : Loader) (ref : StatsRef) (session : Session)
      (hr : w.At r (.loading id loader)) (hget : app.getSession w.tree id ref = .ok session) :
      Brings app w id (.loads r ref) (.loaded id loader w.objects.length)

theorem Brings.object? [SessionCodec] [LlmPortFactory] {app : App} {w : Server} {id : String}
    {i : Input} {phase : RequestPhase} (h : Brings app w id i phase) :
    phase.object? = some (id, w.objects.length) := by
  cases h <;> rfl

/-- The phase a step can put a request in. -/
inductive Turns [SessionCodec] [LlmPortFactory] (app : App) (w : Server) :
    Input → RequestPhase → Prop where
  | creating (id : String) : Turns app w (.post id) (.creating id)
  | loading (id : String) (route : GetRoute) :
      Turns app w (.get id route) (.loading id (.get route))
  | connecting (id : String) : Turns app w (.connect id) (.loading id .connect)
  | deleting (id : String) (fault : Option (Errno × (List String → Bool))) :
      Turns app w (.delete id fault) (.deleting id)
  | brings {id : String} {i : Input} {phase : RequestPhase} (h : Brings app w id i phase) :
      Turns app w i phase
  | released (i : Input) {phase : RequestPhase} (h : phase.id? = none) : Turns app w i phase

section

variable {w : Server} {r : ℕ} {phase : RequestPhase} {id : String} {k : ℕ}

theorem at_onLoadFails {r' : ℕ} {old : RequestPhase} {e : WebExc} {loader : Loader}
    (hr : w.At r old) (h : (w.onLoadFails r e loader).1.At r' phase) :
    w.At r' phase ∨ phase.id? = none := by
  have hset : ∀ {new : RequestPhase}, new.id? = none → (w.setRequest r new).At r' phase →
      w.At r' phase ∨ phase.id? = none := by
    intro new hnew hat
    rcases (at_setRequest hr).mp hat with ⟨-, rfl⟩ | ⟨-, hsame⟩
    · exact Or.inr hnew
    · exact Or.inl hsame
  cases e with
  | storageError message original => cases loader <;> exact hset rfl h
  | raised e => cases e <;> cases loader <;> exact hset rfl h

theorem get?_register_cases {id' : String} {k' : ℕ}
    (h : (w.register id' k').sessions.get? id = some k) :
    w.sessions.get? id = some k ∨ id' = id ∧ k' = k := by
  by_cases heq : id' = id
  · subst heq
    rw [register, OrderedDict.get?_set_self] at h
    exact Or.inr ⟨rfl, Option.some.inj h⟩
  · rw [register, OrderedDict.get?_set_of_ne _ _ heq] at h
    exact Or.inl h

theorem get?_unregister_self : (w.unregister id).sessions.get? id = none := by
  rw [unregister, OrderedDict.get?_filterKeys, if_neg]
  simp

theorem get?_unregister_cases {id' : String} (h : (w.unregister id').sessions.get? id = some k) :
    id ≠ id' ∧ w.sessions.get? id = some k := by
  by_cases heq : id = id'
  · subst heq
    rw [get?_unregister_self] at h
    cases h
  · rw [unregister, OrderedDict.get?_filterKeys, if_pos (by simpa using heq)] at h
    exact ⟨heq, h⟩

theorem sessions_onLoadFails (w : Server) (r : ℕ) (e : WebExc) (loader : Loader) :
    (w.onLoadFails r e loader).1.sessions = w.sessions := by
  cases e with
  | storageError message original => cases loader <;> rfl
  | raised e => cases e <;> cases loader <;> rfl

end

section

variable [UnicodeData] [SessionCodec] [LlmPortFactory] {app : App} {w w' : Server} {i : Input}
  {o : List Obs} {r : ℕ} {phase : RequestPhase} {id : String} {k : ℕ}

/-- A request is where it was, or where this step has put it. -/
theorem Step.request (hs : Step app w i w' o) (h : w'.At r phase) :
    w.At r phase ∨ Turns app w i phase := by
  have hadd : ∀ {w : Server} {new : RequestPhase}, Turns app w i new →
      (w.addRequest new).At r phase → w.At r phase ∨ Turns app w i phase := by
    intro w new hnew hat
    rcases at_addRequest.mp hat with hsame | ⟨-, rfl⟩
    · exact Or.inl hsame
    · exact Or.inr hnew
  have hset : ∀ {r' : ℕ} {old new : RequestPhase}, w.At r' old → Turns app w i new →
      (w.setRequest r' new).At r phase → w.At r phase ∨ Turns app w i phase := by
    intro r' old new hr' hnew hat
    rcases (at_setRequest hr').mp hat with ⟨-, rfl⟩ | ⟨-, hsame⟩
    · exact Or.inr hnew
    · exact Or.inl hsame
  cases hs with
  | postInvalid | postTaken id k taken | getHeld id route obj | list ids | listFails e =>
      exact hadd (.released _ rfl) h
  | delete id fault => exact hadd (.released _ rfl) h
  | post id free => exact hadd (.creating id) h
  | get id route => exact hadd (.loading id route) h
  | connect id => exact hadd (.connecting id) h
  | connectHeld id k obj held hobj => exact Or.inl h
  | deleteConnected id fault => exact hadd (.deleting id fault) h
  | creates r' id now ref faults tree session o hr hcreate ho =>
      exact hset hr (.brings (.creates r' now ref faults tree session hr hcreate)) h
  | createsFails r' id now ref faults tree e o ob hr hcreate ho hob =>
      exact hset hr (.released _ rfl) h
  | loads r' id loader ref session hr hget =>
      exact hset hr (.brings (.loads r' loader ref session hr hget)) h
  | loadFails r' id loader ref e hr hget => exact (at_onLoadFails hr h).imp_right (.released _)
  | resumesCreated r' id k obj hr => exact hset hr (.released _ rfl) h
  | resumesGet r' id route k obj hr => exact hset hr (.released _ rfl) h
  | resumesConnect r' id k obj hr hobj => exact hset hr (.released _ rfl) h
  | closedDelete r' id fault hr => exact hset hr (.released _ rfl) h
  | closed r' fault hr => exact hset hr (.released _ rfl) h
  | accepted r' code hr => exact hset hr (.released _ rfl) h
  | acceptFails r' code hr => exact hset hr (.released _ rfl) h
  | object k i obj c o hi hobj hstep => exact Or.inl h

/-- An object is pending that was, or that this step has made. -/
theorem Step.pending (hs : Step app w i w' o) (h : w'.Pending id k) :
    w.Pending id k ∨ k = w.objects.length ∧ ∃ phase, Brings app w id i phase := by
  obtain ⟨r, phase, hat, hobject⟩ := h
  rcases hs.request hat with hsame | hturns
  · exact Or.inl ⟨r, phase, hsame, hobject⟩
  · cases hturns with
    | brings hbrings =>
        obtain ⟨rfl, rfl⟩ := Prod.mk.inj (Option.some.inj (hbrings.object?.symm.trans hobject))
        exact Or.inr ⟨rfl, phase, hbrings⟩
    | released i hid =>
        rw [RequestPhase.object?_of_id? hid] at hobject
        cases hobject
    | _ => cases hobject

theorem Step.deleting (hs : Step app w i w' o) (h : w'.Deleting id) :
    w.Deleting id ∨ ∃ fault, i = .delete id fault := by
  obtain ⟨r, hat⟩ := h
  rcases hs.request hat with hsame | hturns
  · exact Or.inl ⟨r, hsame⟩
  · cases hturns with
    | deleting id fault => exact Or.inr ⟨fault, rfl⟩
    | brings hbrings => cases hbrings
    | released i hid => cases hid

/-- An object is registered that was, and is not being deleted, or that was pending. -/
theorem Step.registered (hs : Step app w i w' o) (h : w'.sessions.get? id = some k) :
    (∀ fault, i ≠ .delete id fault) ∧ w.sessions.get? id = some k ∨ w.Pending id k := by
  have hregister : ∀ {r : ℕ} {phase : RequestPhase} {id' : String} {k' : ℕ}, w.At r phase →
      phase.object? = some (id', k') → (∀ fault, i ≠ .delete id fault) →
        (w.register id' k').sessions.get? id = some k →
          (∀ fault, i ≠ .delete id fault) ∧ w.sessions.get? id = some k ∨ w.Pending id k := by
    intro r phase id' k' hat hobject hi hget
    rcases get?_register_cases hget with hsame | ⟨rfl, rfl⟩
    · exact Or.inl ⟨hi, hsame⟩
    · exact Or.inr ⟨r, phase, hat, hobject⟩
  cases hs with
  | delete id' fault | deleteConnected id' fault =>
      obtain ⟨hne, hget⟩ := get?_unregister_cases h
      refine Or.inl ⟨?_, hget⟩
      rintro fault ⟨⟩
      exact hne rfl
  | resumesCreated r id' k' obj hr => exact hregister hr rfl (fun _ ↦ Input.noConfusion) h
  | resumesGet r id' route k' obj hr => exact hregister hr rfl (fun _ ↦ Input.noConfusion) h
  | resumesConnect r id' k' obj hr hobj => exact hregister hr rfl (fun _ ↦ Input.noConfusion) h
  | loadFails r id' loader ref e hr hget =>
      rw [sessions_onLoadFails] at h
      exact Or.inl ⟨fun _ ↦ Input.noConfusion, h⟩
  | _ => exact Or.inl ⟨fun _ ↦ Input.noConfusion, h⟩

/-- What nobody refers to is not referred to after a step, unless the step has made it. -/
theorem Step.unreferred (hs : Step app w i w' o)
    (h : w.sessions.get? id ≠ some k ∧ ¬ w.Pending id k)
    (hnew : k = w.objects.length → ∀ phase, ¬ Brings app w id i phase) :
    w'.sessions.get? id ≠ some k ∧ ¬ w'.Pending id k := by
  obtain ⟨hregistered, hpending⟩ := h
  constructor
  · intro hregistered'
    rcases hs.registered hregistered' with ⟨-, h⟩ | h
    · exact hregistered h
    · exact hpending h
  · intro hpending'
    rcases hs.pending hpending' with h | ⟨heq, phase, hbrings⟩
    · exact hpending h
    · exact hnew heq phase hbrings

/-- Where the making of a directory and a 204 come from. -/
theorem Step.told (hs : Step app w i w' o) {ob : Obs} (hob : ob ∈ o) :
    ob.Ordinary ∨
      (∃ r id now ref faults, i = .creates r now ref faults ∧ w.At r (.creating id) ∧
        ¬ w.tree.pathExists (app.repository.sessionDir id) ∧
        (app.createSession w.tree id now ref faults).1.pathExists (app.repository.sessionDir id) ∧
        ob = .makes id w.objects.length) ∨
      ∃ r id fault, (i = .delete id fault ∨ w.Deleting id ∧ ∃ r, i = .closed r fault) ∧
        w'.tree = (app.repository.deleteSession w.tree id fault).1 ∧
        ob = deleteReply r id (app.repository.deleteSession w.tree id fault).2 := by
  have hordinary : ∀ {ob' : Obs}, ob ∈ [ob'] → ob'.Ordinary → ob.Ordinary := by
    intro ob' hmem hob'
    rw [List.mem_singleton.mp hmem]
    exact hob'
  cases hs with
  | delete id fault =>
      exact Or.inr (Or.inr ⟨_, id, fault, Or.inl rfl, rfl, List.mem_singleton.mp hob⟩)
  | closedDelete r id fault hr =>
      exact Or.inr (Or.inr ⟨r, id, fault, Or.inr ⟨⟨r, hr⟩, r, rfl⟩, rfl, List.mem_singleton.mp hob⟩)
  | getHeld id route obj | resumesGet r id route k obj hr =>
      exact Or.inl (hordinary hob (by cases route <;> trivial))
  | creates r id now ref faults tree session o hr hcreate ho =>
      rw [ho] at hob
      obtain ⟨⟨hbefore, hafter⟩, hob⟩ := List.mem_ite_nil_right.mp hob
      obtain rfl := List.mem_singleton.mp hob
      refine Or.inr (Or.inl ⟨r, id, now, ref, faults, rfl, hr, hbefore, ?_, rfl⟩)
      rw [hcreate]
      exact hafter
  | createsFails r id now ref faults tree e o ob' hr hcreate ho hob' =>
      rcases List.mem_append.mp hob with hob | hob
      · rw [ho] at hob
        obtain ⟨⟨hbefore, hafter⟩, hob⟩ := List.mem_ite_nil_right.mp hob
        obtain rfl := List.mem_singleton.mp hob
        refine Or.inr (Or.inl ⟨r, id, now, ref, faults, rfl, hr, hbefore, ?_, rfl⟩)
        rw [hcreate]
        exact hafter
      · left
        rw [List.mem_singleton.mp hob]
        rcases hob' with ⟨message, -, rfl⟩ | rfl | rfl
        all_goals trivial
  | loadFails r id loader ref e hr hget =>
      left
      cases e with
      | storageError message original =>
          cases loader with
          | get route => exact hordinary hob trivial
          | connect => cases hob
      | raised e =>
          cases e <;> cases loader
          all_goals first
            | exact hordinary hob trivial
            | cases hob
  | object k i obj c o hi hobj hstep =>
      obtain ⟨ob', -, rfl⟩ := List.mem_map.mp hob
      exact Or.inl trivial
  | postInvalid | postTaken id k taken | list ids | listFails e | deleteConnected id fault
  | resumesCreated r id k obj hr | accepted r code hr =>
      exact Or.inl (hordinary hob trivial)
  | _ => cases hob

end

end Server
