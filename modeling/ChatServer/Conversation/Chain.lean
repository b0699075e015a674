import ChatServer.Domain.SessionStep
import ChatServer.Lib.LinkedLog
import ChatServer.Service.UseCases

/-!
# The history as a linked log

Everything that can happen to the records of a live session: turns, at whose every suspension
the call may fail or be cancelled, and between them replacements of the strategy; the
strategy's own `update_context` and `get_context`; and the cycle of saving the session and
loading it again.  `App.live` is the machine of all that.

One step of it adds at most one record, and one that refers to the last (`App.messages_liveStep`).
So the history is a prefix of what it becomes, and a linked log.
-/

open FileTree Session

/-! ## The operations -/

/-- `update_context` of the strategy, called between turns and answered with `stream`: its
events pass through the handle of the strategy whether or not the stream breaks off. -/
def Session.updateContext [UnicodeData] (s : Session) (stream : LlmStream) :
    Session × Except PyExc Unit :=
  match s.messageContextStrategy.updateContextBegin with
  | .error e => (s, .error e)
  | .ok none => (s, .ok ())
  | .ok (some _) =>
      let s := stream.events.foldl (fun s e ↦ s.receive s.messageContextStrategy.llm e) s
      match stream.raises with
      | some e => (s, .error e)
      | none =>
          match s.messageContextStrategy.updateContextEnd stream.text with
          | .error e => (s, .error e)
          | .ok strategy => ({ s with messageContextStrategy := strategy }, .ok ())

namespace App

/-- What can happen to a live session. -/
inductive Use where
  /-- A step of a turn, or a new strategy between two turns. -/
  | turn (i : Session.Input)
  /-- `update_context`. -/
  | updateContext (stream : LlmStream)
  /-- `get_context`. -/
  | getContext
  /-- `update_session` and, if it succeeds, `GetSessionUseCase.execute`. -/
  | reload (faults : List (Option Fault)) (ref : StatsRef)

/-- What can be observed of it. -/
inductive UseObs where
  | turn (o : Session.Obs)
  | updated (result : Except PyExc Unit)
  | context (messages : List Message)
  | reloaded (result : Except PyExc Unit)

/-- A session, and the tree it is saved in. -/
abbrev LiveSession := (Session × Option Phase) × FileTree

/-- The identifiers a use draws. -/
def Use.draws : Use → List (String × UUID)
  | turn i => i.draws
  | _ => []

/-- A use draws one identifier at most. -/
theorem Use.draws_eq_nil_or_singleton (u : Use) : u.draws = [] ∨ ∃ d, u.draws = [d] := by
  cases u with
  | turn i =>
      cases i with
      | acompletion prompt stream uuid4 => exact Or.inr ⟨("user", uuid4), rfl⟩
      | mainEnds uuid4 elapsedS => exact Or.inr ⟨("assistant", uuid4), rfl⟩
      | _ => exact Or.inl rfl
  | _ => exact Or.inl rfl

/-- The identifiers that were drawn. -/
def drawnBy (uses : List Use) : List UUID := uses.flatMap fun u ↦ u.draws.map Prod.snd

theorem drawnBy_concat (uses : List Use) (u : Use) :
    drawnBy (uses ++ [u]) = drawnBy uses ++ u.draws.map Prod.snd := by
  simp [drawnBy]

section

variable [UnicodeData] [SessionCodec] [LlmPortFactory]

/-- One step.  A cycle that fails leaves the live session as it is. -/
def liveStep (app : App) : LiveSession → Use → Option (LiveSession × List UseObs)
  | (c, t), .turn i => (Session.step c i).map fun r ↦ ((r.1, t), r.2.map .turn)
  | ((s, p), t), .updateContext stream =>
      let (s', result) := s.updateContext stream
      some (((s', p), t), [.updated result])
  | ((s, p), t), .getContext => some (((s, p), t), [.context s.messageContextStrategy.getContext])
  | ((s, none), t), .reload faults ref =>
      match app.repository.updateSession t s faults with
      | (t', .error e) => some (((s, none), t'), [.reloaded (.error e)])
      | (t', .ok ()) =>
          match app.getSession t' s.id ref with
          | .error e => some (((s, none), t'), [.reloaded (.error e)])
          | .ok s' => some (((s', none), t'), [.reloaded (.ok ())])
  | _, _ => none

/-- The machine of a live session. -/
def live (app : App) : Mealy LiveSession Use UseObs := ⟨app.liveStep⟩

end

/-- A session is saved in a form that can be decoded. -/
def Decodable [SessionCodec] (l : LiveSession) : Use → Prop
  | .reload _ _ => SessionFileAdapter.RoundTrips l.1.1
  | _ => True

/-! ## What they do to the records -/

/-- An event that passes through a handle adds no record. -/
theorem messages_foldl_receive (s : Session) (events : List CompletionEvent) :
    (events.foldl (fun s e ↦ s.receive s.messageContextStrategy.llm e) s).messages =
      s.messages := by
  induction events generalizing s with
  | nil => rfl
  | cons e events ih => exact ih _

theorem messages_updateContext [UnicodeData] (s : Session) (stream : LlmStream) :
    (s.updateContext stream).1.messages = s.messages := by
  have hevents := messages_foldl_receive s stream.events
  unfold Session.updateContext
  split
  · rfl
  · rfl
  · simp only
    split
    · exact hevents
    · split
      · exact hevents
      · rename_i strategy hend
        have hbase := MessageContextStrategy.base_updateContextEnd hend
        exact (congrArg StrategyBase.records hbase).trans hevents

/-- What was saved is loaded, record by record. -/
theorem messages_getSession [SessionCodec] [LlmPortFactory] {app : App} {t t' : FileTree}
    {s s' : Session} {faults : List (Option Fault)} {ref : StatsRef}
    (hround : SessionFileAdapter.RoundTrips s)
    (hwrite : app.repository.updateSession t s faults = (t', .ok ()))
    (h : app.getSession t' s.id ref = .ok s') : s'.messages = s.messages := by
  obtain ⟨state, hstate, hrestore⟩ := Py.bind_eq_ok.mp h
  obtain ⟨hid, hget⟩ := SessionFileAdapter.getSession_of_written hround (.of_updateSession hwrite)
  rw [hstate] at hget
  obtain ⟨c, -, hget⟩ := Py.bind_eq_ok.mp hget.symm
  obtain ⟨c', -, hget⟩ := Py.bind_eq_ok.mp hget
  cases hget
  obtain ⟨llm, -, hrestore⟩ := Py.bind_eq_ok.mp hrestore
  obtain ⟨strategyLlm, -, hrestore⟩ := Py.bind_eq_ok.mp hrestore
  obtain ⟨strategy, hbuild, hrestore⟩ := Py.bind_eq_ok.mp hrestore
  cases hrestore
  have hrecords := congrArg StrategyBase.records (MessageContextStrategyFactory.base_build hbuild)
  exact hrecords

section

variable [UnicodeData] [SessionCodec] [LlmPortFactory] {app : App}

/-- **One step** adds the record it draws, if any, and that refers to the last one. -/
theorem messages_liveStep {l l' : LiveSession} {u : Use} {o : List UseObs}
    (hu : Decodable l u) (h : app.liveStep l u = some (l', o)) :
    ∃ content, l'.1.1.messages = l.1.1.messages ++ u.draws.map fun d ↦
      ⟨d.2, l.1.1.messages.getLast?.map (·.id), Message.of d.1 content⟩ := by
  obtain ⟨⟨s, p⟩, t⟩ := l
  -- every use but a turn leaves the records
  have hkeep : ∀ {s' : Session}, s'.messages = s.messages →
      ∃ content, s'.messages = s.messages ++ ([] : List (String × UUID)).map fun d ↦
        ⟨d.2, s.messages.getLast?.map (·.id), Message.of d.1 content⟩ :=
    fun hs ↦ ⟨"", hs.trans (List.append_nil _).symm⟩
  cases u with
  | turn i =>
      obtain ⟨⟨c', o'⟩, hstep, heq⟩ := Option.map_eq_some_iff.mp h
      cases heq
      exact (Step.of_step hstep).messages
  | updateContext stream =>
      cases h
      exact hkeep (messages_updateContext s stream)
  | getContext =>
      cases h
      exact hkeep rfl
  | reload faults ref =>
      cases p with
      | some p => cases h
      | none =>
          simp only [liveStep] at h
          split at h
          · cases h
            exact hkeep rfl
          · rename_i t' hwrite
            split at h
            · cases h
              exact hkeep rfl
            · rename_i s' hget
              cases h
              exact hkeep (messages_getSession hu hwrite hget)

/-- The history is an append-only linked log: what it was is a prefix of what it is, no
identifier occurs twice, and every record but the first refers to the one before it. -/
theorem chain_of_run {t₀ t₁ : FileTree} {sessionId : String} {now : Datetime} {ref : StatsRef}
    {faults : List (Option Fault)} {s₀ : Session} {l : LiveSession} {uses : List Use}
    {o : List UseObs}
    (hcreate : app.createSession t₀ sessionId now ref faults = (t₁, .ok s₀))
    (hfresh : (drawnBy uses).Nodup)
    (hround : app.live.StepsMeet Decodable ((s₀, none), t₁) uses)
    (h : app.live.run ((s₀, none), t₁) uses = some (l, o)) :
    (∀ before l' o', before <+: uses → app.live.run ((s₀, none), t₁) before = some (l', o') →
        l'.1.1.messages <+: l.1.1.messages) ∧
      (l.1.1.messages.map (·.id)).Nodup ∧
      Linked MessageRecord.id MessageRecord.prevId l.1.1.messages := by
  obtain ⟨hbuild, -⟩ := createSession_ok hcreate
  obtain ⟨-, -, hempty, -⟩ := Built.of_buildSession hbuild
  refine ⟨fun before l' o' hp hr ↦ ?_, ?_⟩
  · refine Mealy.run_monotone (R := fun l l' ↦ l.1.1.messages <+: l'.1.1.messages)
      (fun _ ↦ List.prefix_rfl) (fun _ _ _ ↦ List.IsPrefix.trans) ?_ h hround hp hr
    intro l u l' o hu hs
    obtain ⟨content, hmessages⟩ := messages_liveStep hu hs
    rw [hmessages]
    exact List.prefix_append _ _
  · have hlog : l.1.1.messages.map (·.id) = drawnBy uses ∧
        Linked MessageRecord.id MessageRecord.prevId l.1.1.messages := by
      refine Mealy.run_induction_of_steps (P := fun uses l _ ↦
        l.1.1.messages.map (·.id) = drawnBy uses ∧
          Linked MessageRecord.id MessageRecord.prevId l.1.1.messages) (Q := Decodable)
        ⟨congrArg (List.map _) hempty, ?_⟩ ?_ h hround
      · rw [show s₀.messages = [] from hempty]
        exact .nil
      · rintro uses l o u l' o' ⟨hids, hlinked⟩ hu hs
        obtain ⟨content, hmessages⟩ := messages_liveStep hu hs
        constructor
        · rw [hmessages, List.map_append, hids, drawnBy_concat, List.map_map]
          rfl
        · rw [hmessages]
          rcases u.draws_eq_nil_or_singleton with hdraws | ⟨d, hdraws⟩
          · rw [hdraws, List.map_nil, List.append_nil]
            exact hlinked
          · rw [hdraws]
            exact hlinked.concat rfl
    exact ⟨hlog.1 ▸ hfresh, hlog.2⟩

end

/-- The session is loaded again, and two calls are cut short. -/
def sampleUses : List Use :=
  [.reload [] ⟨1⟩, .turn (.acompletion "a" true (.ofNat 1)), .turn .cancelled, .getContext,
    .turn (.acompletion "b" true (.ofNat 2)), .turn (.event (.textChunk "t")), .turn .closed]

/-- Its two questions are linked. -/
theorem chain_of_sampleUses :
    ∃ t₁ l o, @createSession sampleFactory sampleCodec sample sampleTree "s" ⟨0⟩ ⟨0⟩ [] =
        (t₁, .ok sampleSession) ∧
      (@live .asciiOnly sampleCodec sampleFactory sample).run ((sampleSession, none), t₁)
        sampleUses = some (l, o) ∧
      l.1.1.messages.map (·.id) = [.ofNat 1, .ofNat 2] ∧
      Linked MessageRecord.id MessageRecord.prevId l.1.1.messages := by
  let t₁ := (@createSession sampleFactory sampleCodec sample sampleTree "s" ⟨0⟩ ⟨0⟩ []).1
  let M := @live .asciiOnly sampleCodec sampleFactory sample
  have hcreate : @createSession sampleFactory sampleCodec sample sampleTree "s" ⟨0⟩ ⟨0⟩ [] =
      (t₁, .ok sampleSession) := Prod.snd_eq_iff.mp (by decide +kernel)
  obtain ⟨⟨l, o⟩, hrun, hids⟩ := Option.map_eq_some_iff.mp
    (show (M.run ((sampleSession, none), t₁) sampleUses).map (fun r ↦
      r.1.1.1.messages.map (·.id)) = some [.ofNat 1, .ofNat 2] by decide +kernel)
  refine ⟨t₁, l, o, hcreate, hrun, hids, ?_⟩
  refine (@chain_of_run .asciiOnly sampleCodec sampleFactory sample sampleTree t₁ "s" ⟨0⟩ ⟨0⟩ []
    sampleSession l sampleUses o hcreate (by decide) ?_ hrun).2.2
  -- only the first step reads what was written
  intro before u l' o' hp hr
  cases before with
  | nil =>
      cases hr
      obtain ⟨rfl, -⟩ := List.cons_prefix_cons.mp hp
      exact roundTrips_sample rfl rfl rfl rfl (Or.inl ⟨rfl, rfl⟩)
  | cons u' before =>
      have hmem : u ∈ sampleUses.tail :=
        (List.cons_prefix_cons.mp hp).2.subset (List.mem_append_right _ (List.mem_singleton_self _))
      simp only [sampleUses, List.tail_cons, List.mem_cons, List.not_mem_nil, or_false] at hmem
      rcases hmem with rfl | rfl | rfl | rfl | rfl | rfl <;> trivial

end App
