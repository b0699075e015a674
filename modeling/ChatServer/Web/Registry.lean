import ChatServer.Accounting.Ledger
import ChatServer.Web.Creation
import ChatServer.Web.Recreation

/-!
# One object for a session

A route that does not find a session in the registry loads it and registers a new object, and
a client that was connected to an older object would go on talking to a session nobody else
sees.  Between the look at the registry and the registration there is an `await`, but what is
awaited never suspends (`AtomicExecute`), so no object is ever put in the place of another
one: a session keeps its object until it is deleted (`Coherent.step`).

What an object is of only grows (`Session.Grown`).  So does what the routes show of a session,
whatever its clients do in the meantime.
-/

open FileTree

/-! ## What only grows -/

namespace Session

/-- A session at a later time: the same session with a history that goes on from the earlier
one, with no fewer tokens accounted for, and what they cost added to what was there. -/
structure Grown (s s' : Session) : Prop where
  id : s'.id = s.id
  createdAt : s'.createdAt = s.createdAt
  completionConfig : s'.completionConfig = s.completionConfig
  messages : s.messages <+: s'.messages
  promptTokens : ∀ p m, (s.usageStats.lifecycleTotalData.usage p m).promptTokens ≤
    (s'.usageStats.lifecycleTotalData.usage p m).promptTokens
  completionTokens : ∀ p m, (s.usageStats.lifecycleTotalData.usage p m).completionTokens ≤
    (s'.usageStats.lifecycleTotalData.usage p m).completionTokens
  cost : ∀ p m cost, s.usageStats.lifecycleTotalData.cost p m = some cost →
    ∃ added, s'.usageStats.lifecycleTotalData.cost p m = some (cost + added)

theorem Grown.refl (s : Session) : Grown s s where
  id := rfl
  createdAt := rfl
  completionConfig := rfl
  messages := List.prefix_rfl
  promptTokens _ _ := le_rfl
  completionTokens _ _ := le_rfl
  cost _ _ cost h := ⟨0, by rwa [add_zero]⟩

theorem Grown.trans {s₁ s₂ s₃ : Session} (h : Grown s₁ s₂) (h' : Grown s₂ s₃) :
    Grown s₁ s₃ where
  id := h'.id.trans h.id
  createdAt := h'.createdAt.trans h.createdAt
  completionConfig := h'.completionConfig.trans h.completionConfig
  messages := h.messages.trans h'.messages
  promptTokens p m := (h.promptTokens p m).trans (h'.promptTokens p m)
  completionTokens p m := (h.completionTokens p m).trans (h'.completionTokens p m)
  cost p m cost hcost := by
    obtain ⟨added, hadded⟩ := h.cost p m cost hcost
    obtain ⟨added', hadded'⟩ := h'.cost p m _ hadded
    exact ⟨added + added', by rwa [← add_assoc]⟩

variable [UnicodeData]

theorem Step.grown {c c' : Session × Option Phase} {i : Input} {o : List Obs}
    (h : Step c i c' o) : Grown c.1 c'.1 := by
  obtain ⟨content, hmessages⟩ := h.messages
  refine ⟨h.frame.id, h.frame.createdAt, h.frame.completionConfig, ?_, ?_, ?_, ?_⟩
  · rw [hmessages]
    exact List.prefix_append _ _
  · intro p m
    rw [h.usage p m]
    exact Nat.le_add_right _ _
  · intro p m
    rw [h.usage p m]
    exact Nat.le_add_right _ _
  · exact fun p m cost hcost ↦ h.cost hcost

/-- What a stream task does to its session: nothing, or its generator makes a step, which
installs no strategy. -/
inductive Advances (s : Session) : Session → Prop where
  | same : Advances s s
  | step (s' : Session) (phase phase' : Option Phase) (i : Input) (o : List Obs)
      (hstep : Step (s, phase) i (s', phase') o) (hi : ∀ strategy, i ≠ .setStrategy strategy) :
      Advances s s'

theorem Advances.grown {s s' : Session} (h : s.Advances s') : s.Grown s' := by
  cases h with
  | same => exact .refl s
  | step _ phase phase' i o hstep hi => exact hstep.grown

end Session

namespace StreamTask

variable [UnicodeData] [SessionCodec] {a : SessionFileAdapter} {t t' : FileTree}
  {s s' : Session} {faults : List (Option Fault)}

theorem advances_advance {phase : Option Session.Phase} {i : Session.Input}
    {phase' : StreamPhase} {o : List StreamObs}
    (hs : advance a t s faults phase i = some ((t', s', phase'), o))
    (hi : phase = none → ∀ strategy, i ≠ .setStrategy strategy) : s.Advances s' := by
  obtain ⟨⟨⟨s₁, p₁⟩, o₁⟩, hstep, heq⟩ := Option.map_eq_some_iff.mp hs
  cases heq
  refine .step s' phase p₁ i o₁ (.of_step hstep) fun strategy hset ↦ ?_
  subst hset
  cases phase with
  | none => exact hi rfl strategy rfl
  | some phase => cases phase <;> cases hstep

theorem advances_stepPhase {content : String} {phase phase' : StreamPhase} {i : StreamInput}
    {o : List StreamObs}
    (hs : stepPhase a t s faults content phase i = some ((t', s', phase'), o)) :
    s.Advances s' := by
  cases phase with
  | created =>
      cases i with
      | runs uuid4 => exact advances_advance hs fun _ strategy ↦ Session.Input.noConfusion
      | _ => cases hs
  | awaiting phase =>
      cases i with
      | resumes i => exact advances_advance hs nofun
      | _ => cases hs
  | sendingChunk phase =>
      cases i with
      | sent => exact advances_advance hs nofun
      | sendFails e =>
          cases hs
          exact .same
      | _ => cases hs
  | sendingDone event rest =>
      cases i with
      | sent | sendFails e =>
          cases hs
          exact .same
      | _ => cases hs
  | sendingError =>
      cases i with
      | sent | sendFails e =>
          cases hs
          exact .same
      | _ => cases hs
  | finished result => cases i <;> cases hs

theorem advances_step {task task' : StreamTask} {i : StreamInput} {o : List StreamObs}
    (hs : step a t s faults task i = some ((t', s', task'), o)) : s.Advances s' := by
  obtain ⟨⟨⟨t₁, s₁, phase⟩, o₁⟩, hnext, heq⟩ := Option.map_eq_some_iff.mp hs
  cases heq
  split at hnext
  · split at hnext
    · unfold stepCancelled at hnext
      split at hnext
      · exact advances_advance hnext nofun
      · cases hnext
        exact .same
      · cases hnext
        exact .same
      · cases hnext
        exact .same
      · cases hnext
        exact .same
      · cases hnext
    · cases hnext
  · exact advances_stepPhase hnext

end StreamTask

namespace WsHandler

variable [UnicodeData] [SessionCodec] {a : SessionFileAdapter} {w w' : State} {i : Input}
  {o : List Obs}

theorem Step.advances (hs : Step a w i w' o) : w.sc.session.Advances w'.sc.session := by
  cases hs with
  | stream n i faults task task' tree session o htask hstep => exact StreamTask.advances_step hstep
  | _ => exact .same

theorem Step.grown (hs : Step a w i w' o) : w.sc.session.Grown w'.sc.session := hs.advances.grown

end WsHandler

/-! ## The registry -/

/-- The request is in an `execute`, or has its result in hand. -/
def RequestPhase.Executing : RequestPhase → Prop
  | creating _ | created _ _ | loading _ _ | loaded _ _ _ => True
  | deleting _ | refusing _ | closing | ended => False

theorem RequestPhase.executing_of_object? {phase : RequestPhase} {id : String} {k : ℕ}
    (h : phase.object? = some (id, k)) : phase.Executing ∧ phase.id? = some id := by
  cases phase with
  | created id k | loaded id loader k =>
      cases h
      exact ⟨trivial, rfl⟩
  | _ => cases h

namespace Server

/-- The request an input is for. -/
def Input.request (w : Server) : Input → Option ℕ
  | .post _ | .get _ _ | .list | .delete _ _ | .connect _ => some w.requests.length
  | .creates r _ _ _ | .loads r _ | .resumes r | .closed r _ | .accepted r | .acceptFails r =>
      some r
  | .object _ _ => none

/-- The input makes a request go on that is in an `execute`. -/
def Input.Executes (r : ℕ) : Input → Prop
  | .creates r' _ _ _ | .loads r' _ | .resumes r' => r' = r
  | _ => False

theorem Input.Executes.request {i : Input} {r : ℕ} (h : i.Executes r) (w : Server) :
    i.request w = some r := by
  cases i with
  | creates r' now ref faults => exact congrArg some h
  | loads r' ref => exact congrArg some h
  | resumes r' => exact congrArg some h
  | _ => exact h.elim

/-- `execute` does not suspend: a request that is in one goes on before anything else
happens. -/
def AtomicExecute (w : Server) (i : Input) : Prop :=
  ∀ r phase, w.At r phase → phase.Executing → i.Executes r

/-- One request at a time is in an `execute`, for a session that is not registered, and what it
makes is not the object of any other. -/
structure Coherent (w : Server) : Prop where
  alone : ∀ r r' phase phase', w.At r phase → w.At r' phase' → phase.Executing →
    phase'.Executing → r = r'
  unregistered : ∀ r phase id, w.At r phase → phase.Executing → phase.id? = some id →
    w.sessions.get? id = none
  held : ∀ id k, w.sessions.get? id = some k → k < w.objects.length
  pending : ∀ id k, w.Pending id k → k < w.objects.length ∧
    ∀ id' k', w.sessions.get? id' = some k' → k' < k
  injective : ∀ id id' k, w.sessions.get? id = some k → w.sessions.get? id' = some k → id = id'

theorem coherent_start (t : FileTree) : (start t).Coherent := by
  constructor
  · intro r r' phase phase' hat
    cases hat
  · intro r phase id hat
    cases hat
  · intro id k hget
    cases hget
  · rintro id k ⟨r, phase, hat, -⟩
    cases hat
  · intro id id' k hget
    cases hget

section

variable [UnicodeData] [SessionCodec] [LlmPortFactory] {app : App} {w w' : Server} {i : Input}
  {o : List Obs} {r k : ℕ} {id : String} {phase : RequestPhase}

/-- Every request but the one the input is for stays where it is. -/
theorem Step.request_of_ne (hs : Step app w i w' o) (h : w'.At r phase)
    (hr : i.request w ≠ some r) : w.At r phase := by
  have hadd : ∀ (w₁ : Server) {new : RequestPhase}, some w₁.requests.length ≠ some r →
      (w₁.addRequest new).At r phase → w₁.At r phase := by
    intro w₁ new hne hat
    rcases at_addRequest.mp hat with hsame | ⟨rfl, -⟩
    · exact hsame
    · exact absurd rfl hne
  have hset : ∀ {r' : ℕ} {old new : RequestPhase}, some r' ≠ some r → w.At r' old →
      (w.setRequest r' new).At r phase → w.At r phase := by
    intro r' old new hne hold hat
    rcases (at_setRequest hold).mp hat with ⟨rfl, -⟩ | ⟨-, hsame⟩
    · exact absurd rfl hne
    · exact hsame
  cases hs with
  | postInvalid | postTaken id' k taken | post id' free | getHeld id' route obj | get id' route
  | list ids | listFails e | connect id' => exact hadd w hr h
  | delete id' fault => exact hadd (w.unregister id') hr h
  | deleteConnected id' fault => exact hadd (w.unregister id') hr h
  | connectHeld id' k obj held hobj => exact h
  | creates r' id' now ref faults tree session o hr' hcreate ho => exact hset hr hr' h
  | createsFails r' id' now ref faults tree e o ob hr' hcreate ho hob => exact hset hr hr' h
  | loads r' id' loader ref session hr' hget => exact hset hr hr' h
  | loadFails r' id' loader ref e hr' hget =>
      cases e with
      | storageError message original => cases loader <;> exact hset hr hr' h
      | raised e => cases e <;> cases loader <;> exact hset hr hr' h
  | resumesCreated r' id' k obj hr' => exact hset hr hr' h
  | resumesGet r' id' route k obj hr' => exact hset hr hr' h
  | resumesConnect r' id' k obj hr' hobj => exact hset hr hr' h
  | closedDelete r' id' fault hr' => exact hset hr hr' h
  | closed r' fault hr' => exact hset hr hr' h
  | accepted r' code hr' => exact hset hr hr' h
  | acceptFails r' code hr' => exact hset hr hr' h
  | object k i obj c o hi hobj hstep => exact h

/-- A request that goes on is not where it was. -/
theorem Step.moves_on (hs : Step app w i w' o) (hi : i.Executes r) (h : w.At r phase)
    (hphase : phase.Executing) : ¬ w'.At r phase := by
  have hset : ∀ {new : RequestPhase}, (w.setRequest r new).At r phase → phase = new := by
    intro new hat
    rcases (at_setRequest h).mp hat with ⟨-, heq⟩ | ⟨hr, -⟩
    · exact heq
    · exact absurd rfl hr
  have hold : ∀ {r' : ℕ} {old : RequestPhase}, r' = r → w.At r' old → phase = old := by
    rintro r' old rfl hr'
    exact Option.some.inj (h.symm.trans hr')
  intro hat
  cases hs with
  | creates r' id' now ref faults tree session o hr' hcreate ho =>
      cases hold hi hr'
      obtain rfl : r' = r := hi
      cases hset hat
  | createsFails r' id' now ref faults tree e o ob hr' hcreate ho hob =>
      cases hold hi hr'
      obtain rfl : r' = r := hi
      cases hset hat
  | loads r' id' loader ref session hr' hget =>
      cases hold hi hr'
      obtain rfl : r' = r := hi
      cases hset hat
  | loadFails r' id' loader ref e hr' hget =>
      cases hold hi hr'
      obtain rfl : r' = r := hi
      cases e with
      | storageError message original => cases loader <;> cases hset hat
      | raised e => cases e <;> cases loader <;> cases hset hat
  | resumesCreated r' id' k obj hr' =>
      cases hold hi hr'
      obtain rfl : r' = r := hi
      cases hset hat
  | resumesGet r' id' route k obj hr' =>
      cases hold hi hr'
      obtain rfl : r' = r := hi
      cases hset hat
  | resumesConnect r' id' k obj hr' hobj =>
      cases hold hi hr'
      obtain rfl : r' = r := hi
      cases hset hat
  | _ => exact hi

/-- A request goes to an `execute` only for a session that is not registered. -/
theorem unregistered_of_starts (hs : step app w i = some (w', o)) (h : w'.At r phase)
    (hnew : ¬ w.At r phase) (hphase : phase = .creating id ∨ ∃ loader, phase = .loading id loader) :
    w.sessions.get? id = none ∧ w'.sessions = w.sessions := by
  have hended : ∀ {w₁ : Server}, (w₁.addRequest .ended).At r phase → w₁.At r phase := by
    intro w₁ hat
    rcases at_addRequest.mp hat with hsame | ⟨-, rfl⟩
    · exact hsame
    · rcases hphase with hphase | ⟨loader, hphase⟩ <;> cases hphase
  rcases (Step.of_step hs).request h with hsame | hturns
  · exact absurd hsame hnew
  · cases hturns with
    | creating id' =>
        obtain rfl : id' = id := by
          rcases hphase with hphase | ⟨loader, hphase⟩
          · exact RequestPhase.creating.inj hphase
          · cases hphase
        simp only [step, onPost, Option.some.injEq] at hs
        split at hs
        · cases hs
          exact absurd (hended h) hnew
        · split at hs
          · cases hs
            exact absurd (hended h) hnew
          · rename_i hfree
            cases hs
            exact ⟨hfree, rfl⟩
    | loading id' route =>
        obtain rfl : id' = id := by
          rcases hphase with hphase | ⟨loader, hphase⟩
          · cases hphase
          · exact (RequestPhase.loading.inj hphase).1
        simp only [step, onGet] at hs
        split at hs
        · obtain ⟨obj, -, heq⟩ := Option.map_eq_some_iff.mp hs
          cases heq
          exact absurd (hended h) hnew
        · rename_i hfree
          cases hs
          exact ⟨hfree, rfl⟩
    | connecting id' =>
        obtain rfl : id' = id := by
          rcases hphase with hphase | ⟨loader, hphase⟩
          · cases hphase
          · exact (RequestPhase.loading.inj hphase).1
        simp only [step, onConnect] at hs
        split at hs
        · obtain ⟨w₁, hconnect, heq⟩ := Option.map_eq_some_iff.mp hs
          obtain ⟨obj, -, rfl⟩ := Option.map_eq_some_iff.mp hconnect
          cases heq
          exact absurd h hnew
        · rename_i hfree
          cases hs
          exact ⟨hfree, rfl⟩
    | deleting id' fault => rcases hphase with hphase | ⟨loader, hphase⟩ <;> cases hphase
    | brings hbrings =>
        rcases hphase with rfl | ⟨loader, rfl⟩ <;> cases hbrings
    | released i hnone => rcases hphase with rfl | ⟨loader, rfl⟩ <;> cases hnone

/-- Who is in an `execute` after a step is the request the input is for, and was not there
before. -/
theorem AtomicExecute.step (hi : w.AtomicExecute i) (hs : Step app w i w' o)
    (h : w'.At r phase) (hphase : phase.Executing) : i.request w = some r ∧ ¬ w.At r phase := by
  constructor
  · by_contra hne
    have hsame := hs.request_of_ne h hne
    exact hne ((hi r phase hsame hphase).request w)
  · intro hsame
    exact hs.moves_on (hi r phase hsame hphase) hsame hphase h

/-- Who has made an object after a step has made it in this step. -/
theorem AtomicExecute.pending (hi : w.AtomicExecute i) (hs : Step app w i w' o)
    (h : w'.Pending id k) : k = w.objects.length ∧ ∃ phase, Brings app w id i phase := by
  obtain ⟨r, phase, hat, hobject⟩ := h
  obtain ⟨-, hnew⟩ := hi.step hs hat (RequestPhase.executing_of_object? hobject).1
  rcases hs.request hat with hsame | hturns
  · exact absurd hsame hnew
  · cases hturns with
    | brings hbrings =>
        obtain ⟨rfl, rfl⟩ := Prod.mk.inj (Option.some.inj (hbrings.object?.symm.trans hobject))
        exact ⟨rfl, phase, hbrings⟩
    | released i hnone =>
        rw [RequestPhase.object?_of_id? hnone] at hobject
        cases hobject
    | _ => cases hobject

omit [UnicodeData] in
/-- Nothing is pending while the body of an `execute` runs. -/
theorem Coherent.not_pending (hw : w.Coherent) (hbrings : Brings app w id i phase) (id' : String)
    (k : ℕ) : ¬ w.Pending id' k := by
  rintro ⟨r', phase', hat', hobject⟩
  have hexecuting := (RequestPhase.executing_of_object? hobject).1
  cases hbrings with
  | creates r now ref faults tree session hr hcreate =>
      obtain rfl := hw.alone r r' _ _ hr hat' trivial hexecuting
      cases Option.some.inj (hr.symm.trans hat')
      cases hobject
  | loads r loader ref session hr hget =>
      obtain rfl := hw.alone r r' _ _ hr hat' trivial hexecuting
      cases Option.some.inj (hr.symm.trans hat')
      cases hobject

/-- **One step** keeps the registry coherent, if `execute` does not suspend. -/
theorem Coherent.step (hw : w.Coherent) (hs : Server.step app w i = some (w', o))
    (hi : w.AtomicExecute i) : w'.Coherent := by
  have hstep := Step.of_step hs
  constructor
  · intro r r' phase phase' hat hat' hphase hphase'
    have hr := (hi.step hstep hat hphase).1
    have hr' := (hi.step hstep hat' hphase').1
    exact Option.some.inj (hr.symm.trans hr')
  · intro r phase id hat hphase hid
    obtain ⟨-, hnew⟩ := hi.step hstep hat hphase
    have hstarts : (phase = .creating id ∨ ∃ loader, phase = .loading id loader) →
        w'.sessions.get? id = none := by
      intro hkind
      obtain ⟨hnone, hsame⟩ := unregistered_of_starts hs hat hnew hkind
      rw [hsame]
      exact hnone
    have hbrought : ∀ {phase' : RequestPhase}, Brings app w id i phase' →
        w'.sessions.get? id = none := by
      intro phase' hbrings
      have hnone : w.sessions.get? id = none := by
        cases hbrings with
        | creates r now ref faults tree session hr hcreate =>
            exact hw.unregistered r _ id hr trivial rfl
        | loads r loader ref session hr hget => exact hw.unregistered r _ id hr trivial rfl
      cases hget : w'.sessions.get? id with
      | none => rfl
      | some k =>
          rcases hstep.registered hget with ⟨-, hold⟩ | hpending
          · cases hnone.symm.trans hold
          · exact absurd hpending (hw.not_pending hbrings id k)
    cases phase with
    | creating id' =>
        cases hid
        exact hstarts (Or.inl rfl)
    | loading id' loader =>
        cases hid
        exact hstarts (Or.inr ⟨loader, rfl⟩)
    | created id' k | loaded id' loader k =>
        cases hid
        obtain ⟨-, phase', hbrings⟩ := hi.pending hstep ⟨r, _, hat, rfl⟩
        exact hbrought hbrings
    | _ => exact hphase.elim
  · intro id k hget
    rcases hstep.registered hget with ⟨-, hold⟩ | hpending
    · exact (hw.held id k hold).trans_le hstep.objects_length_le
    · exact (hw.pending id k hpending).1.trans_le hstep.objects_length_le
  · intro id k hpending
    obtain ⟨rfl, phase, hbrings⟩ := hi.pending hstep hpending
    obtain ⟨obj, hobj⟩ := hstep.object_of_brings hbrings
    refine ⟨(List.getElem?_eq_some_iff.mp hobj).1, fun id' k' hget ↦ ?_⟩
    rcases hstep.registered hget with ⟨-, hold⟩ | hpending'
    · exact hw.held id' k' hold
    · exact absurd hpending' (hw.not_pending hbrings id' k')
  · intro id id' k hget hget'
    rcases hstep.registered hget with ⟨-, hold⟩ | hpending <;>
      rcases hstep.registered hget' with ⟨-, hold'⟩ | hpending'
    · exact hw.injective id id' k hold hold'
    · exact absurd ((hw.pending id' k hpending').2 id k hold) (lt_irrefl k)
    · exact absurd ((hw.pending id k hpending).2 id' k hold') (lt_irrefl k)
    · obtain ⟨r, phase, hat, hobject⟩ := hpending
      obtain ⟨r', phase', hat', hobject'⟩ := hpending'
      obtain rfl := hw.alone r r' phase phase' hat hat'
        (RequestPhase.executing_of_object? hobject).1
        (RequestPhase.executing_of_object? hobject').1
      obtain rfl := Option.some.inj (hat.symm.trans hat')
      exact (Prod.mk.inj (Option.some.inj (hobject.symm.trans hobject'))).1

/-- A session keeps its object until it is deleted. -/
theorem Coherent.stays (hw : w.Coherent) (hs : Step app w i w' o)
    (hi : ∀ fault, i ≠ .delete id fault) (h : w.sessions.get? id = some k) :
    w'.sessions.get? id = some k := by
  obtain ⟨k', hk', rfl | ⟨r, phase, hat, hobject⟩⟩ := hs.stays_registered hi h
  · exact hk'
  · obtain ⟨hexecuting, hid⟩ := RequestPhase.executing_of_object? hobject
    cases (hw.unregistered r phase id hat hexecuting hid).symm.trans h

theorem coherent_of_run {t : FileTree} {is : List Input}
    (h : (machine app).run (.start t) is = some (w, o))
    (hatomic : (machine app).StepsMeet AtomicExecute (.start t) is) : w.Coherent := by
  refine Mealy.run_induction_of_steps (P := fun _ w _ ↦ w.Coherent) (Q := AtomicExecute)
    (coherent_start t) ?_ h hatomic
  exact fun _ w _ i w' o' hw hi hs ↦ hw.step hs hi

/-! ## What is known of a session that was made -/

/-- The session of an object only grows. -/
theorem Step.object_grown (hs : Step app w i w' o) {obj : Held} (hobj : w.objects[k]? = some obj) :
    ∃ obj', w'.objects[k]? = some obj' ∧ obj.sc.session.Grown obj'.sc.session := by
  obtain ⟨obj', hobj', rfl | ⟨j, c, o', hstep, rfl⟩⟩ := hs.object_moves hobj
  · exact ⟨obj', hobj', .refl _⟩
  · exact ⟨.of c, hobj', hstep.grown⟩

/-- The object that is registered for a session is of the session whose making was answered
with this identifier and this time. -/
def RegisteredAs (id : String) (createdAt : Datetime) (w : Server) : Prop :=
  ∃ k obj, w.sessions.get? id = some k ∧ w.objects[k]? = some obj ∧ obj.sc.session.id = id ∧
    obj.sc.session.createdAt = createdAt

theorem RegisteredAs.step {createdAt : Datetime} (h : RegisteredAs id createdAt w)
    (hw : w.Coherent) (hs : Step app w i w' o) (hi : ∀ fault, i ≠ .delete id fault) :
    RegisteredAs id createdAt w' := by
  obtain ⟨k, obj, hget, hobj, hid, hcreatedAt⟩ := h
  obtain ⟨obj', hobj', hgrown⟩ := hs.object_grown hobj
  exact ⟨k, obj', hw.stays hs hi hget, hobj', hgrown.id.trans hid,
    hgrown.createdAt.trans hcreatedAt⟩

theorem registeredAs_of_run (hid : PlainName id) {t : FileTree} {is : List Input}
    (h : (machine app).run (.start t) is = some (w, o)) (hspares : ∀ i ∈ is, i.Spares id)
    (hatomic : (machine app).StepsMeet AtomicExecute (.start t) is) {createdAt : Datetime} {n : ℕ}
    (hr : .answers r (.summary id createdAt n) ∈ o) : RegisteredAs id createdAt w := by
  have hrun : (w.Coherent ∧ Settling app id w o) ∧ ∀ r createdAt n,
      .answers r (.summary id createdAt n) ∈ o → RegisteredAs id createdAt w := by
    refine Mealy.run_induction_of_steps (P := fun _ w o ↦ (w.Coherent ∧ Settling app id w o) ∧
      ∀ r createdAt n, .answers r (.summary id createdAt n) ∈ o → RegisteredAs id createdAt w)
      (Q := fun w i ↦ w.AtomicExecute i ∧ i.Spares id) ?_ ?_ h ?_
    · refine ⟨⟨coherent_start t, settling_start app id t⟩, fun r createdAt n hmem ↦ ?_⟩
      cases hmem
    · rintro _ w o i w' o' ⟨⟨hw, hsettling⟩, htold⟩ ⟨hexecute, hi⟩ hs
      refine ⟨⟨hw.step hs hexecute, hsettling.step hid hs hi⟩, fun r createdAt n hmem ↦ ?_⟩
      rcases List.mem_append.mp hmem with hmem | hmem
      · refine (htold r createdAt n hmem).step hw (.of_step hs) ?_
        rintro fault rfl
        exact hi.2 rfl
      · obtain ⟨k, -, hget, hobjects, obj, hobj, hobjId, hcreatedAt⟩ :=
          created_of_summary hs hmem hsettling.named
        exact ⟨k, obj, hget, by rw [hobjects]; exact hobj, hobjId, hcreatedAt⟩
    · intro js i w₁ o₁ hp hr
      have hi : i ∈ is := Mealy.mem_of_concat_prefix hp
      exact ⟨hatomic js i w₁ o₁ hp hr, hspares i hi⟩
  exact hrun.2 r createdAt n hr

/-- **Known.**  Unless the session is deleted, every route knows it from the moment its request
is answered with 201; and if `execute` does not suspend, what is shown is the session that was
made. -/
theorem known_of_created (hid : PlainName id) {t : FileTree} {is : List Input}
    (h : (machine app).run (.start t) is = some (w, o)) (hspares : ∀ i ∈ is, i.Spares id)
    {createdAt : Datetime} {n : ℕ} (hr : .answers r (.summary id createdAt n) ∈ o) :
    Known app id w ∧
      ((machine app).StepsMeet AtomicExecute (.start t) is → RegisteredAs id createdAt w) := by
  constructor
  · have hw := settling_of_run hid h hspares
    obtain ⟨k, hk⟩ := hw.registered r createdAt n hr
    obtain ⟨obj, hobj⟩ := hw.held k (Or.inl hk)
    exact .of_held hid hk hobj (hw.isDir r (Or.inr ⟨createdAt, n, hr⟩))
  · exact fun hatomic ↦ registeredAs_of_run hid h hspares hatomic hr

/-! ## What is shown of a session -/

/-- Every route that shows the session `id` is answered at once, with what it shows of `s`. -/
def Shows (app : App) (id : String) (w : Server) (s : Session) : Prop :=
  ∀ route, Server.step app w (.get id route) =
    some (w.addRequest .ended, [.answers w.requests.length (route.show s)])

omit [UnicodeData] [SessionCodec] [LlmPortFactory] in
/-- What the routes show of a session is all that `Session.Grown` speaks of. -/
theorem grown_of_show {s s' : Session} (h : ∀ route : GetRoute, route.show s = route.show s') :
    s.Grown s' := by
  obtain ⟨hinfo, hmessages⟩ := Reply.detail.inj (h .session)
  obtain ⟨hid, hcreatedAt, hconfig, hstatistics⟩ := SessionInfo.mk.inj hinfo
  have hdata : s.usageStats.lifecycleTotalData = s'.usageStats.lifecycleTotalData := by
    have hgetD := congrArg (fun d : Option StatsData ↦ d.getD ∅) hstatistics
    simpa only [StatsData.getD_orNone] using hgetD
  refine ⟨hid.symm, hcreatedAt.symm, hconfig.symm, ?_, ?_, ?_, ?_⟩
  · rw [hmessages]
  · intro p m
    rw [hdata]
  · intro p m
    rw [hdata]
  · intro p m cost hcost
    exact ⟨0, by rwa [add_zero, ← hdata]⟩

theorem Shows.of_held {obj : Held} (hget : w.sessions.get? id = some k)
    (hobj : w.objects[k]? = some obj) : Shows app id w obj.sc.session := by
  intro route
  simp only [Server.step, onGet, hget, hobj, Option.map_some]

/-- A session that is shown is registered. -/
theorem Shows.held {s : Session} (h : Shows app id w s) :
    ∃ k obj, w.sessions.get? id = some k ∧ w.objects[k]? = some obj ∧ s.Grown obj.sc.session := by
  have hsession := h .session
  simp only [Server.step, onGet] at hsession
  split at hsession
  · rename_i k hget
    obtain ⟨obj, hobj, -⟩ := Option.map_eq_some_iff.mp hsession
    refine ⟨k, obj, hget, hobj, grown_of_show fun route ↦ ?_⟩
    have hheld : Shows app id w obj.sc.session := .of_held hget hobj
    have hboth := (h route).symm.trans (hheld route)
    obtain ⟨-, hobs⟩ := Prod.mk.inj (Option.some.inj hboth)
    obtain ⟨hob, -⟩ := List.cons.inj hobs
    exact (Obs.answers.inj hob).2
  · obtain ⟨-, hobs⟩ := Prod.mk.inj (Option.some.inj hsession)
    cases hobs

/-- **Every run** from a coherent state in which a session is not deleted keeps its object, and
what this is of grows. -/
theorem Coherent.run {w₁ : Server} {js : List Input} {obj₁ : Held} (hw₁ : w₁.Coherent)
    (h : (machine app).run w₁ js = some (w, o))
    (hatomic : (machine app).StepsMeet AtomicExecute w₁ js)
    (hdelete : ∀ fault, .delete id fault ∉ js) (hget : w₁.sessions.get? id = some k)
    (hobj₁ : w₁.objects[k]? = some obj₁) : w.Coherent ∧ w.sessions.get? id = some k ∧
      ∃ obj, w.objects[k]? = some obj ∧ obj₁.sc.session.Grown obj.sc.session := by
  refine Mealy.run_induction_of_steps (P := fun _ w _ ↦ w.Coherent ∧
    w.sessions.get? id = some k ∧
      ∃ obj, w.objects[k]? = some obj ∧ obj₁.sc.session.Grown obj.sc.session)
    (Q := fun w i ↦ w.AtomicExecute i ∧ ∀ fault, i ≠ .delete id fault) ?_ ?_ h ?_
  · exact ⟨hw₁, hget, obj₁, hobj₁, .refl _⟩
  · rintro _ w _ i w' o' ⟨hw, hk, obj, hobj, hgrown⟩ ⟨hi, hdelete⟩ hs
    obtain ⟨obj', hobj', hgrown'⟩ := (Step.of_step hs).object_grown hobj
    exact ⟨hw.step hs hi, hw.stays (.of_step hs) hdelete hk, obj', hobj', hgrown.trans hgrown'⟩
  · intro ks i w₂ o₂ hp hr
    refine ⟨hatomic ks i w₂ o₂ hp hr, ?_⟩
    rintro fault rfl
    exact hdelete fault (Mealy.mem_of_concat_prefix hp)

/-- What is shown of a session that is not deleted only grows, whatever its clients and all
others do. -/
theorem grown_of_run {t : FileTree} {is js : List Input} {w₁ : Server} {o₁ : List Obs}
    (h₁ : (machine app).run (.start t) is = some (w₁, o₁))
    (h : (machine app).run w₁ js = some (w, o))
    (hatomic : (machine app).StepsMeet AtomicExecute (.start t) (is ++ js))
    (hdelete : ∀ fault, .delete id fault ∉ js) {s₁ : Session} (hs₁ : Shows app id w₁ s₁) :
    ∃ s, Shows app id w s ∧ s₁.Grown s := by
  have hw₁ := coherent_of_run h₁ (hatomic.restrict (List.prefix_append is js))
  obtain ⟨k, obj₁, hget, hobj₁, hgrown₁⟩ := hs₁.held
  obtain ⟨-, hk, obj, hobj, hgrown⟩ := hw₁.run h (hatomic.drop h₁) hdelete hget hobj₁
  exact ⟨obj.sc.session, .of_held hk hobj, hgrown₁.trans hgrown⟩

/-- An object was registered for a session at some point of a run. -/
def HasHad (app : App) (t : FileTree) (is : List Input) (id : String) (k : ℕ) : Prop :=
  ∃ js w o, js <+: is ∧ (machine app).run (.start t) js = some (w, o) ∧
    w.sessions.get? id = some k

/-- A session that is not deleted has had one object, which was that of no other session. -/
theorem object_of_session {t : FileTree} {is : List Input}
    (h : (machine app).run (.start t) is = some (w, o))
    (hatomic : (machine app).StepsMeet AtomicExecute (.start t) is)
    (hdelete : ∀ fault, .delete id fault ∉ is) (hk : HasHad app t is id k) :
    w.sessions.get? id = some k := by
  obtain ⟨js, w₁, o₁, ⟨ks, rfl⟩, h₁, hget⟩ := hk
  obtain ⟨w₂, o₂, o₃, hr, hrest, rfl⟩ := Mealy.exists_of_run_append h
  obtain ⟨rfl, rfl⟩ := Prod.mk.inj (Option.some.inj (h₁.symm.trans hr))
  have hw₁ := coherent_of_run h₁ (hatomic.restrict (List.prefix_append js ks))
  obtain ⟨obj₁, hobj₁⟩ : ∃ obj, w₁.objects[k]? = some obj :=
    ⟨_, List.getElem?_eq_getElem (hw₁.held id k hget)⟩
  refine (hw₁.run hrest (hatomic.drop h₁) ?_ hget hobj₁).2.1
  exact fun fault hmem ↦ hdelete fault (List.mem_append_right js hmem)

/-- One stream at a time for a session, whatever objects it has had: two streams of it that are
not done are one. -/
theorem one_stream_of_session {t : FileTree} {is : List Input}
    (h : (machine app).run (.start t) is = some (w, o))
    (haccept : (machine app).StepsMeet AtomicAccept (.start t) is)
    (hexecute : (machine app).StepsMeet AtomicExecute (.start t) is)
    (hdelete : ∀ fault, .delete id fault ∉ is) {k' n n' : ℕ} (hk : HasHad app t is id k)
    (hk' : HasHad app t is id k') {obj obj' : Held} (hobj : w.objects[k]? = some obj)
    (hobj' : w.objects[k']? = some obj') {task task' : StreamTask}
    (hn : obj.tasks[n]? = some task) (hdone : task.isDone = false)
    (hn' : obj'.tasks[n']? = some task') (hdone' : task'.isDone = false) : k = k' ∧ n = n' := by
  have hsame : w.sessions.get? id = some k := object_of_session h hexecute hdelete hk
  have hsame' : w.sessions.get? id = some k' := object_of_session h hexecute hdelete hk'
  obtain rfl : k = k' := Option.some.inj (hsame.symm.trans hsame')
  obtain rfl := Option.some.inj (hobj.symm.trans hobj')
  have htracked := ((orderly_of_run h haccept).objects k obj hobj).2
  exact ⟨rfl, htracked.atMostOne hn hdone hn' hdone'⟩

end

/-! ## A run to evaluate -/

instance : DecidablePred RequestPhase.Executing
  | .creating _ | .created _ _ | .loading _ _ | .loaded _ _ _ => isTrue trivial
  | .deleting _ | .refusing _ | .closing | .ended => isFalse id

instance (r : ℕ) : DecidablePred (Input.Executes r)
  | .creates r' _ _ _ | .loads r' _ | .resumes r' => inferInstanceAs (Decidable (r' = r))
  | .post _ | .get _ _ | .list | .delete _ _ | .connect _ | .closed _ _ | .accepted _
  | .acceptFails _ | .object _ _ => isFalse id

instance (w : Server) (i : Input) : Decidable (w.AtomicExecute i) :=
  decidable_of_iff (∀ r < w.requests.length, ∀ phase ∈ w.requests[r]?, phase.Executing →
    i.Executes r) <| by
      constructor
      · intro h r phase hat
        exact h r (List.getElem?_eq_some_iff.mp hat).1 phase hat
      · exact fun h r _ phase hat ↦ h r phase hat

/-- After the race the session is known; and what `sampleOpen` has made is what is shown. -/
theorem known_sampleRace : ∃ w o w' o',
    sampleMachine.run sampleStart sampleRace = some (w, o) ∧
    @Known .asciiOnly App.sampleCodec App.sampleFactory App.sample "s" w ∧
    sampleMachine.run sampleStart sampleOpen = some (w', o') ∧ RegisteredAs "s" ⟨0⟩ w' := by
  obtain ⟨⟨w, o⟩, hrun, ho⟩ := Option.map_eq_some_iff.mp
    (show (sampleMachine.run sampleStart sampleRace).map (·.2.getLast?) =
      some (some (.answers 1 (.summary "s" ⟨0⟩ 0))) from rfl)
  obtain ⟨⟨w', o'⟩, hrun', ho'⟩ := Option.map_eq_some_iff.mp
    (show (sampleMachine.run sampleStart sampleOpen).map (·.2.getLast?) =
      some (some (.answers 0 (.summary "s" ⟨0⟩ 0))) from rfl)
  have hspares : ∀ i ∈ sampleOpen, i.Spares "s" := by
    simp only [sampleOpen, List.forall_mem_cons]
    exact ⟨trivial, trivial, trivial, trivial, List.forall_mem_nil _⟩
  have hatomic : sampleMachine.StepsMeet AtomicExecute sampleStart sampleOpen := .of_checks rfl
  refine ⟨w, o, w', o', hrun, ?_, hrun', ?_⟩
  · exact (@known_of_created .asciiOnly App.sampleCodec App.sampleFactory App.sample w o 1 "s"
      (by decide) App.sampleTree sampleRace hrun spares_sampleRace ⟨0⟩ 0
      (List.mem_of_getLast? ho)).1
  · exact (@known_of_created .asciiOnly App.sampleCodec App.sampleFactory App.sample w' o' 0 "s"
      (by decide) App.sampleTree sampleOpen hrun' hspares ⟨0⟩ 0
      (List.mem_of_getLast? ho')).2 hatomic

/-- The client of a session is answered, while another session is looked for. -/
def sampleTurn : List Input :=
  [.object 0 (.handler 0 .accepted),
    .object 0 (.handler 0 (.receives (some (.sendMessage "hi")))),
    .object 0 (.stream 0 (.runs (.ofNat 1)) []), .get "t" .session, .loads 1 ⟨1⟩,
    .object 0 (.stream 0 (.resumes (.event (.textChunk "yo"))) []),
    .object 0 (.stream 0 .sent [])]

theorem atomicExecute_sampleTurn :
    sampleMachine.StepsMeet AtomicExecute sampleStart (sampleOpen ++ sampleTurn) :=
  .of_checks rfl

/-- What is shown after the answer goes on from what was shown before it. -/
theorem grown_sampleTurn : ∃ w₁ o₁ w o s, sampleMachine.run sampleStart sampleOpen = some (w₁, o₁) ∧
    sampleMachine.run w₁ sampleTurn = some (w, o) ∧
    @Shows .asciiOnly App.sampleCodec App.sampleFactory App.sample "s" w₁ App.sampleSession ∧
    @Shows .asciiOnly App.sampleCodec App.sampleFactory App.sample "s" w s ∧
    App.sampleSession.Grown s := by
  obtain ⟨⟨w₁, o₁⟩, hrun₁, heval⟩ := Option.map_eq_some_iff.mp
    (show (sampleMachine.run sampleStart sampleOpen).map (fun r ↦
        (r.1.sessions.get? "s", r.1.objects[0]?.map (·.sc.session))) =
      some (some 0, some App.sampleSession) from rfl)
  obtain ⟨hget, hobject⟩ := Prod.mk.inj heval
  obtain ⟨obj, hobj, hsession⟩ := Option.map_eq_some_iff.mp hobject
  obtain ⟨⟨w, o⟩, hrun⟩ := Option.isSome_iff_exists.mp
    (show (sampleMachine.run w₁ sampleTurn).isSome = true from by
      cases hrun₁
      rfl)
  have hs₁ : @Shows .asciiOnly App.sampleCodec App.sampleFactory App.sample "s" w₁
      App.sampleSession :=
    hsession ▸ @Shows.of_held .asciiOnly App.sampleCodec App.sampleFactory App.sample w₁ 0 "s" obj
      hget hobj
  have hdelete : ∀ fault, .delete "s" fault ∉ sampleTurn := by
    simp [sampleTurn]
  obtain ⟨s, hs, hgrown⟩ := @grown_of_run .asciiOnly App.sampleCodec App.sampleFactory App.sample
    w o "s" App.sampleTree sampleOpen sampleTurn w₁ o₁ hrun₁ hrun atomicExecute_sampleTurn hdelete
    App.sampleSession hs₁
  exact ⟨w₁, o₁, w, o, s, hrun₁, hrun, hs₁, hs, hgrown⟩

theorem atomicExecute_sampleFirstMessage :
    sampleMachine.StepsMeet AtomicExecute sampleStart sampleFirstMessage :=
  .of_checks rfl

/-- Whatever objects the session has had, its one stream that is not done is the first of the
first. -/
theorem one_stream_of_sampleSession : ∃ w o,
    sampleMachine.run sampleStart sampleFirstMessage = some (w, o) ∧
      ∀ k n obj task, @HasHad .asciiOnly App.sampleCodec App.sampleFactory App.sample
        App.sampleTree sampleFirstMessage "s" k → w.objects[k]? = some obj →
          obj.tasks[n]? = some task → task.isDone = false → 0 = k ∧ 0 = n := by
  obtain ⟨⟨w, o⟩, hrun, heval⟩ := Option.map_eq_some_iff.mp
    (show (sampleMachine.run sampleStart sampleFirstMessage).map (fun r ↦
        (r.1.sessions.get? "s", r.1.objects[0]?.map fun obj ↦ (obj.tasks))) =
      some (some 0, some [{ ws := 0, content := "hi" }]) from rfl)
  obtain ⟨hget, hobject⟩ := Prod.mk.inj heval
  obtain ⟨obj, hobj, htasks⟩ := Option.map_eq_some_iff.mp hobject
  have htask : obj.tasks[0]? = some { ws := 0, content := "hi" } := by
    rw [htasks]
    rfl
  have hdelete : ∀ fault, .delete "s" fault ∉ sampleFirstMessage := by
    simp [sampleFirstMessage, sampleOpen]
  refine ⟨w, o, hrun, fun k n obj' task hk hobj' hn hdone ↦ ?_⟩
  exact @one_stream_of_session .asciiOnly App.sampleCodec App.sampleFactory App.sample w o 0 "s"
    App.sampleTree sampleFirstMessage hrun atomicAccept_sampleFirstMessage
    atomicExecute_sampleFirstMessage hdelete k 0 n ⟨sampleFirstMessage, w, o, List.prefix_rfl, hrun,
      hget⟩ hk obj obj' hobj hobj' { ws := 0, content := "hi" } task htask rfl hn hdone

end Server
