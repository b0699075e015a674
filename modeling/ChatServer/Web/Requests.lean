import ChatServer.Web.Creation

/-!
# What becomes of a request

Nobody waits for anybody else: a handler that is suspended in a body that has not run, or with
its result, or in a `close`, can always go on, so every request can be brought to its end, in
as many steps as it has suspensions before it (`Server.ends_of_run`).
-/

open FileTree

namespace Server

/-- What a request waits for itself goes on. -/
def Input.Own (r : ℕ) : Input → Prop
  | .creates r' _ _ _ | .loads r' _ | .resumes r' | .closed r' _ | .accepted r'
  | .acceptFails r' => r' = r
  | _ => False

/-- How many of its suspensions a request has before it at most. -/
def rank : RequestPhase → ℕ
  | .loading _ _ => 3
  | .creating _ | .refusing _ => 2
  | .created _ _ | .loaded _ _ _ | .deleting _ | .closing => 1
  | .ended => 0

theorem rank_le (phase : RequestPhase) : rank phase ≤ 3 := by
  cases phase <;> simp [rank]

theorem rank_of_id?_eq_none {phase : RequestPhase} (h : phase.id? = none) : rank phase ≤ 2 := by
  cases phase with
  | refusing | closing | ended => simp [rank]
  | _ => cases h

theorem At.unique {w : Server} {r : ℕ} {phase phase' : RequestPhase} (h : w.At r phase)
    (h' : w.At r phase') : phase = phase' := Option.some.inj (h.symm.trans h')

/-- A failed `get_uc.execute` ends its request, or goes on with its connection. -/
theorem exists_onLoadFails (w : Server) (r : ℕ) (loader : Loader) (e : WebExc) :
    ∃ phase', (w.onLoadFails r e loader).1 = w.setRequest r phase' ∧ phase'.id? = none := by
  cases e with
  | storageError message original =>
      cases loader with
      | get route => exact ⟨.ended, rfl, rfl⟩
      | connect => exact ⟨.refusing 4500, rfl, rfl⟩
  | raised e =>
      cases e with
      | fileNotFoundError message =>
          cases loader with
          | get route => exact ⟨.ended, rfl, rfl⟩
          | connect => exact ⟨.refusing 4404, rfl, rfl⟩
      | _ => exact ⟨.ended, by cases loader <;> rfl, rfl⟩

section

variable [UnicodeData] [SessionCodec] [LlmPortFactory] {app : App} {w w' : Server} {i : Input}
  {o : List Obs} {r : ℕ} {phase : RequestPhase}

/-- What a request has made is there. -/
def Made (w : Server) : Prop := ∀ id k, w.Pending id k → ∃ obj, w.objects[k]? = some obj

theorem Made.step (h : w.Made) (hs : Step app w i w' o) : w'.Made := by
  intro id k hpending
  rcases hs.pending hpending with hpending | ⟨rfl, phase, hbrings⟩
  · obtain ⟨obj, hobj⟩ := h id k hpending
    obtain ⟨obj', hobj', -⟩ := hs.kept_object hobj
    exact ⟨obj', hobj'⟩
  · exact hs.object_of_brings hbrings

theorem made_of_run {t : FileTree} {is : List Input}
    (h : (machine app).run (.start t) is = some (w, o)) : w.Made := by
  refine Mealy.run_induction (P := fun _ w _ ↦ w.Made) ?_ ?_ h
  · rintro id k ⟨r, phase, hat, -⟩
    cases hat
  · intro _ w _ i w' o' hw hs
    exact hw.step (.of_step hs)

/-- A step of its own brings a request nearer to its end. -/
theorem Step.rank_lt (hs : Step app w i w' o) (hi : i.Own r) (hr : w.At r phase) :
    ∃ phase', w'.At r phase' ∧ rank phase' < rank phase := by
  have hset : ∀ {w₁ : Server} {r' : ℕ} {old new : RequestPhase}, w₁.requests = w.requests →
      w.At r' old → r' = r → rank new < rank old →
        ∃ phase', (w₁.setRequest r' new).At r phase' ∧ rank phase' < rank phase := by
    rintro w₁ r' old new hrequests hr' rfl hlt
    have hr₁ : w₁.At r' old := by
      rw [At, hrequests]
      exact hr'
    refine ⟨new, (at_setRequest hr₁).mpr (Or.inl ⟨rfl, rfl⟩), ?_⟩
    rwa [hr.unique hr']
  cases hs with
  | creates r' id now ref faults tree session o hr' hcreate ho =>
      exact hset rfl hr' hi (by simp [rank])
  | createsFails r' id now ref faults tree e o ob hr' hcreate ho hob =>
      exact hset rfl hr' hi (by simp [rank])
  | loads r' id loader ref session hr' hget => exact hset rfl hr' hi (by simp [rank])
  | loadFails r' id loader ref e hr' hget =>
      obtain ⟨new, hnew, hid⟩ := exists_onLoadFails w r' loader e
      rw [hnew]
      exact hset rfl hr' hi (Nat.lt_succ_of_le (rank_of_id?_eq_none hid))
  | resumesCreated r' id k obj hr' => exact hset rfl hr' hi (by simp [rank])
  | resumesGet r' id route k obj hr' => exact hset rfl hr' hi (by simp [rank])
  | resumesConnect r' id k obj hr' hobj => exact hset rfl hr' hi (by simp [rank])
  | closedDelete r' id fault hr' => exact hset rfl hr' hi (by simp [rank])
  | closed r' fault hr' => exact hset rfl hr' hi (by simp [rank])
  | accepted r' code hr' => exact hset rfl hr' hi (by simp [rank])
  | acceptFails r' code hr' => exact hset rfl hr' hi (by simp [rank])
  | _ => exact absurd hi id

/-- A request that is not over is never stuck. -/
theorem goes_on (h : w.Made) (hr : w.At r phase) (hne : phase ≠ .ended) :
    ∃ i w' o, i.Own r ∧ step app w i = some (w', o) := by
  have hstep : ∀ {i : Input} {x : Option (Server × List Obs)}, i.Own r → step app w i = x →
      x.isSome = true → ∃ i w' o, i.Own r ∧ step app w i = some (w', o) := by
    intro i x hi hx hsome
    obtain ⟨⟨w', o⟩, heq⟩ := Option.isSome_iff_exists.mp hsome
    exact ⟨i, w', o, hi, hx.trans heq⟩
  have hr' : w.requests[r]? = some phase := hr
  cases phase with
  | creating id => exact hstep (i := .creates r ⟨0⟩ ⟨0⟩ []) rfl (by rw [step, hr']) rfl
  | created id k =>
      obtain ⟨obj, hobj⟩ := h id k ⟨r, _, hr, rfl⟩
      refine hstep (i := .resumes r) rfl (by rw [step, hr']) ?_
      show (w.onResumes r (.created id k)).isSome = true
      rw [onResumes, hobj]
      rfl
  | loading id loader => exact hstep (i := .loads r ⟨0⟩) rfl (by rw [step, hr']) rfl
  | loaded id loader k =>
      obtain ⟨obj, hobj⟩ := h id k ⟨r, _, hr, rfl⟩
      refine hstep (i := .resumes r) rfl (by rw [step, hr']) ?_
      cases loader with
      | get route =>
          show (w.onResumes r (.loaded id (.get route) k)).isSome = true
          rw [onResumes, hobj]
          rfl
      | connect =>
          have hobj' : ((w.register id k).setRequest r .ended).objects[k]? = some obj := hobj
          show (w.onResumes r (.loaded id .connect k)).isSome = true
          rw [onResumes, connectTo, hobj']
          rfl
  | deleting id => exact hstep (i := .closed r none) rfl (by rw [step, hr']) rfl
  | refusing code => exact hstep (i := .acceptFails r) rfl (by rw [step, hr']) rfl
  | closing => exact hstep (i := .closed r none) rfl (by rw [step, hr']) rfl
  | ended => exact absurd rfl hne

/-- By steps of its own a request comes to its end. -/
theorem ends {n : ℕ} (h : w.Made) (hr : w.At r phase) (hn : rank phase ≤ n) :
    ∃ is w' o, (machine app).run w is = some (w', o) ∧ (∀ i ∈ is, i.Own r) ∧ is.length ≤ n ∧
      w'.At r .ended := by
  induction n generalizing w phase with
  | zero =>
      cases phase with
      | ended => exact ⟨[], w, [], rfl, List.forall_mem_nil _, le_rfl, hr⟩
      | _ => exact absurd hn (by simp [rank])
  | succ n ih =>
      by_cases hended : phase = .ended
      · subst hended
        exact ⟨[], w, [], rfl, List.forall_mem_nil _, Nat.zero_le _, hr⟩
      · obtain ⟨i, w₁, o₁, hi, hs⟩ := goes_on h hr hended
        obtain ⟨phase', hr', hlt⟩ := (Step.of_step hs).rank_lt hi hr
        obtain ⟨is, w', o, hrun, his, hlength, hend⟩ :=
          ih (h.step (.of_step hs)) hr' (by omega)
        refine ⟨i :: is, w', o₁ ++ o, Mealy.run_cons hs hrun, ?_, ?_, hend⟩
        · intro j hj
          rcases List.mem_cons.mp hj with rfl | hj
          · exact hi
          · exact his j hj
        · exact Nat.succ_le_succ hlength

/-- **No request waits for another.**  In every state a run can reach, and whatever all others
are suspended in, a request is brought to its end by at most three steps of its own. -/
theorem ends_of_run {t : FileTree} {is : List Input}
    (h : (machine app).run (.start t) is = some (w, o)) (hr : w.At r phase) :
    ∃ js w' o', (machine app).run w js = some (w', o') ∧ (∀ j ∈ js, j.Own r) ∧ js.length ≤ 3 ∧
      w'.At r .ended :=
  ends (made_of_run h) hr (rank_le phase)

end

/-! ## A run to evaluate -/

/-- A client connects to a session that is being made, and is brought to its end alone. -/
theorem ends_sample : ∃ w o, sampleMachine.run sampleStart [.post "s", .connect "s"] =
    some (w, o) ∧ ∃ js w' o', sampleMachine.run w js = some (w', o') ∧ (∀ j ∈ js, j.Own 1) ∧
      js.length ≤ 3 ∧ w'.At 1 .ended :=
  ⟨_, _, rfl, @ends_of_run .asciiOnly App.sampleCodec App.sampleFactory App.sample _ [] 1
    (.loading "s" .connect) App.sampleTree [.post "s", .connect "s"] rfl rfl⟩

end Server
