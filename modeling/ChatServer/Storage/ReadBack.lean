import ChatServer.Storage.SessionFileAdapter

/-!
# Reading back what was written

After a successful write `get_session` sees the files of the session that was
written, and nothing else can be in them: `getSession_of_written` computes what
it returns.  Whether the two files decode to what was encoded is up to `json` and
pydantic (`RoundTrips`); that a configuration without an output schema is found
again is proved (`restorable_of_no_output`).
-/

open FileTree

/-- A text that is not empty stays so under `truthyText`. -/
theorem truthyText_of_ne {s : String} (h : s ≠ "") : truthyText (some s) = some s := if_pos h

theorem ne_of_truthyText {o : Option String} {s : String} (h : truthyText o = some s) : s ≠ "" := by
  unfold truthyText at h
  split at h
  · split at h
    · cases h
      assumption
    · cases h
  · cases h

/-- A configuration that needs no file but the one its own prompt is written to. -/
structure CompletionConfig.SelfContained (c : CompletionConfig) : Prop where
  outputConfig : c.outputConfig = none
  outputConfigPath : truthyText c.outputConfigPath = none
  systemPromptPath : truthyText c.systemPrompt = none → truthyText c.systemPromptPath = none

section

variable [ConfigCodec]

theorem systemPromptFile_ne (c : CompletionConfig) (prompt : String) :
    systemPromptFile c prompt ≠ "" := by
  rw [systemPromptFile]
  cases hpath : truthyText c.systemPromptPath with
  | some f => exact ne_of_truthyText hpath
  | none =>
      intro h
      have hlength := congrArg String.length h
      rw [Option.getD_none, String.length_append, String.length_append] at hlength
      exact absurd hlength (by simp)

theorem serializedConfig_of_none {c : CompletionConfig} (houtput : c.outputConfig = none)
    (hprompt : truthyText c.systemPrompt = none) : serializedConfig c = c := by
  rw [serializedConfig, hprompt, houtput]

theorem serializedConfig_of_some {c : CompletionConfig} (houtput : c.outputConfig = none)
    {prompt : String} (hprompt : truthyText c.systemPrompt = some prompt) :
    serializedConfig c = { c with
      systemPrompt := none, systemPromptPath := some (systemPromptFile c prompt) } := by
  rw [serializedConfig, hprompt, houtput]

/-- A configuration that is self-contained resolves once its prompt can be read. -/
theorem resolve_serializedConfig {t : FileTree} {dir : List String} {c : CompletionConfig}
    (hself : c.SelfContained)
    (hread : ∀ p content, .write p content ∈ serializeActions c dir →
      ∃ content', t.read p = .ok content') :
    ∃ c', resolveCompletionConfig t (serializedConfig c) dir = .ok c' := by
  have houtput : ∀ raw : CompletionConfig, truthyText raw.outputConfigPath = none →
      resolveOutputConfig t raw dir = .ok raw := by
    intro raw hraw
    rw [resolveOutputConfig, hraw]
  cases hprompt : truthyText c.systemPrompt with
  | none =>
      have hser := serializedConfig_of_none hself.outputConfig hprompt
      refine ⟨c, ?_⟩
      rw [hser, resolveCompletionConfig, resolveSystemPrompt, hself.systemPromptPath hprompt]
      exact houtput c hself.outputConfigPath
  | some prompt =>
      have hser := serializedConfig_of_some hself.outputConfig hprompt
      obtain ⟨text, htext⟩ := hread (join dir (systemPromptFile c prompt)) prompt (by
        rw [serializeActions, resourceWrites, hprompt]
        exact List.mem_cons_of_mem _ (List.mem_append_left _ (List.mem_singleton_self _)))
      refine ⟨{ c with
        systemPrompt := some (String.ofList (universalNewlines text.toList))
        systemPromptPath := some (systemPromptFile c prompt) }, ?_⟩
      rw [hser, resolveCompletionConfig, resolveSystemPrompt,
        truthyText_of_ne (systemPromptFile_ne c prompt)]
      simp only [loadResource, htext]
      exact houtput _ hself.outputConfigPath

end

namespace SessionFileAdapter

variable [SessionCodec]

/-- The two files written for a session decode to what was encoded. -/
structure RoundTrips (s : Session) : Prop where
  info : ∀ h, SessionCodec.loadInfo (SessionCodec.dumpInfo (infoOf s h)) = .ok (infoOf s h)
  messages : SessionCodec.loadMessages (SessionCodec.dumpMessages (messagesOf s)) =
    .ok (messagesOf s)

/-- The tree is what a successful write of a session left. -/
def Written (a : SessionFileAdapter) (t' : FileTree) (s : Session) : Prop :=
  ∃ t faults, writeSessionFiles t (a.sessionDir s.id) s faults = (t', .ok ())

/-- The state of a session in the store, when its configurations come back as the
given ones. -/
def stateOf (s : Session) (h : s.id ≠ "") (completionConfig : CompletionConfig)
    (strategyCompletionConfig : CompletionConfig) : SessionState where
  id := s.id
  createdAt := s.createdAt
  completionConfig := completionConfig
  statistics := s.usageStats.lifecycleTotalData.orNone
  strategyType := s.messageContextStrategy.strategyType
  strategyMetadata := s.messageContextStrategy.getMetadata
  strategyCompletionConfig := strategyCompletionConfig
  strategyRecords := s.messages
  id_ne := h

/-- After any write the configurations of a session resolve to something. -/
def Restorable (a : SessionFileAdapter) (s : Session) : Prop :=
  ∀ t', a.Written t' s →
    (∃ c, resolveCompletionConfig t' (serializedConfig s.completionConfig)
      (a.sessionDir s.id) = .ok c) ∧
    ∃ c, resolveCompletionConfig t' (serializedConfig s.messageContextStrategy.completionConfig)
      (a.sessionDir s.id) = .ok c

theorem writeSessionFiles_ok {t t' : FileTree} {dir : List String} {s : Session}
    {faults : List (Option Fault)} (h : writeSessionFiles t dir s faults = (t', .ok ())) :
    ∃ (hid : s.id ≠ "") (t₁ : FileTree) (faults₁ : List (Option Fault)),
      t.exec (resourceActions dir s) faults = (t₁, none) ∧
        t₁.exec (fileActions dir s hid) faults₁ = (t', none) := by
  unfold writeSessionFiles at h
  split at h
  · cases h
  · rename_i hid
    split at h
    · cases h
    · split at h
      · cases h
      · rename_i t₁ hresources
        split at h
        · cases h
        · cases h
        · rename_i hfiles
          cases h
          exact ⟨hid, t₁, _, hresources, hfiles⟩

theorem Written.of_updateSession {a : SessionFileAdapter} {t t' : FileTree} {s : Session}
    {faults : List (Option Fault)} (h : a.updateSession t s faults = (t', .ok ())) :
    a.Written t' s := by
  simp only [updateSession] at h
  split at h
  · exact ⟨t, faults, h⟩
  · cases h

theorem Written.of_createSession {a : SessionFileAdapter} {t t' : FileTree} {s : Session}
    {faults : List (Option Fault)} (h : a.createSession t s faults = (t', .ok ())) :
    a.Written t' s := by
  simp only [createSession] at h
  split at h
  · cases h
  · cases h
  · rename_i t₁ _
    exact ⟨t₁, faults.tail, h⟩

/-- The two files of a session hold the information of one session and the messages of
another. -/
def Holds (a : SessionFileAdapter) (t : FileTree) (id : String) (s s' : Session) : Prop :=
  ∃ hid : s.id ≠ "",
    t.read (a.sessionDir id ++ [sessionInfo]) = .ok (SessionCodec.dumpInfo (infoOf s hid)) ∧
    t.read (a.sessionDir id ++ [sessionMessages]) =
      .ok (SessionCodec.dumpMessages (messagesOf s'))

theorem Holds.of_written {a : SessionFileAdapter} {t' : FileTree} {s : Session}
    (h : a.Written t' s) : a.Holds t' s.id s s := by
  obtain ⟨t, faults, h⟩ := h
  obtain ⟨hid, t₁, faults₁, -, hfiles⟩ := writeSessionFiles_ok h
  exact ⟨hid, read_exec (by decide) (by decide) (by decide) hfiles⟩

/-- **What is held is what is read**, with the configurations as they resolve. -/
theorem getSession_of_holds {a : SessionFileAdapter} {t : FileTree} {id : String}
    {s s' : Session} (hround : RoundTrips s) (hround' : RoundTrips s') (h : a.Holds t id s s') :
    ∃ hid : s.id ≠ "", a.getSession t id = do
      let c ← resolveCompletionConfig t (serializedConfig s.completionConfig) (a.sessionDir id)
      let c' ← resolveCompletionConfig t
        (serializedConfig s.messageContextStrategy.completionConfig) (a.sessionDir id)
      return { stateOf s hid c c' with strategyRecords := s'.messages } := by
  obtain ⟨hid, hinfo, hmessages⟩ := h
  have hrecords : (messagesOf s').records.mapM MessageRecordDto.toRecord = .ok s'.messages :=
    MessageRecordDto.mapM_toRecord s'.messages
  refine ⟨hid, ?_⟩
  simp only [getSession, readFile, hinfo, hmessages, hround.info hid, hround'.messages, bind,
    Except.bind]
  simp only [resolveInfo, infoOf, bind, Except.bind]
  cases resolveCompletionConfig t (serializedConfig s.completionConfig) (a.sessionDir id) with
  | error e => rfl
  | ok c =>
      cases resolveCompletionConfig t
        (serializedConfig s.messageContextStrategy.completionConfig) (a.sessionDir id) with
      | error e => rfl
      | ok c' =>
          simp only [Except.map, pure, Except.pure, hrecords]
          rfl

/-- **What was written is what is read**, with the configurations as they resolve. -/
theorem getSession_of_written {a : SessionFileAdapter} {t' : FileTree} {s : Session}
    (hround : RoundTrips s) (h : a.Written t' s) :
    ∃ hid : s.id ≠ "", a.getSession t' s.id = do
      let c ← resolveCompletionConfig t' (serializedConfig s.completionConfig) (a.sessionDir s.id)
      let c' ← resolveCompletionConfig t'
        (serializedConfig s.messageContextStrategy.completionConfig) (a.sessionDir s.id)
      return stateOf s hid c c' :=
  getSession_of_holds hround hround (.of_written h)

/-- Without output schemas nothing is needed to load the configurations again. -/
theorem restorable_of_no_output {a : SessionFileAdapter} {s : Session}
    (hmain : s.completionConfig.SelfContained)
    (hstrategy : s.messageContextStrategy.completionConfig.SelfContained) : a.Restorable s := by
  rintro t' ⟨t, faults, h⟩
  obtain ⟨hid, t₁, faults₁, hresources, hfiles⟩ := writeSessionFiles_ok h
  have hread : ∀ p content, .write p content ∈ resourceActions (a.sessionDir s.id) s →
      ∃ content', t'.read p = .ok content' := by
    intro p content hmem
    obtain ⟨content₁, hread⟩ := exists_read_exec hresources hmem
    exact (keepsKinds_exec hfiles).read hread
  constructor
  · exact resolve_serializedConfig hmain fun p content hmem ↦
      hread p content (List.mem_append_left _ hmem)
  · exact resolve_serializedConfig hstrategy fun p content hmem ↦
      hread p content (List.mem_append_right _ hmem)

end SessionFileAdapter
