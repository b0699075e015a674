import ChatServer.Storage.SessionFileAdapter

/-!
# Sessions in the store do not touch each other

An identifier is used as a path below the storage directory as it is.  When it
is a plain name, everything a method of the store changes lies in the directory
of that name (`node?_runAll`), whatever fails on the way, and what `get_session`
returns for another plain name is read from its own directory
(`getSession_congr`).  An identifier like `.` or `../out` leads elsewhere.

The files of a configuration have paths too.  The ones the store chooses are
plain names; a configuration that brings its own is asked for paths that stay
inside the directory of the session (`InsidePaths`).
-/

open FileTree

namespace CompletionConfig

/-- The resource files a configuration names lie inside the directory they are
taken relative to. -/
structure InsidePaths (c : CompletionConfig) : Prop where
  systemPrompt : ∀ f ∈ truthyText c.systemPromptPath, Inside f
  outputConfig : ∀ f ∈ truthyText c.outputConfigPath, Inside f

end CompletionConfig

/-- A name made of hexadecimal digits between two plain texts is plain. -/
theorem plainName_hexDigits {front back : String} (n : ℕ)
    (hfront : '/' ∉ front.toList ∧ '\x00' ∉ front.toList)
    (hback : '/' ∉ back.toList ∧ '\x00' ∉ back.toList) (hlong : 3 ≤ front.length) :
    PlainName (front ++ String.ofList (Py.hexDigits 8 n) ++ back) := by
  have hlength : 3 ≤ (front ++ String.ofList (Py.hexDigits 8 n) ++ back).length := by
    rw [String.length_append, String.length_append]
    omega
  have hnot : ∀ c, c ∉ front.toList → c ∉ back.toList → c ∉ Py.hexAlphabet →
      c ∉ (front ++ String.ofList (Py.hexDigits 8 n) ++ back).toList := by
    intro c hfront hback hhex h
    rw [String.toList_append, String.toList_append, String.toList_ofList] at h
    rcases List.mem_append.mp h with h | h
    · rcases List.mem_append.mp h with h | h
      · exact hfront h
      · exact hhex (Py.mem_hexDigits h)
    · exact hback h
  refine ⟨?_, ?_, ?_, hnot _ hfront.1 hback.1 (by decide), hnot _ hfront.2 hback.2 (by decide)⟩
  · intro h
    rw [h] at hlength
    exact absurd hlength (by decide)
  · intro h
    rw [h] at hlength
    exact absurd hlength (by decide)
  · intro h
    rw [h] at hlength
    exact absurd hlength (by decide)

section

variable [ConfigCodec]

theorem inside_systemPromptFile {c : CompletionConfig} (h : c.InsidePaths) (prompt : String) :
    Inside (systemPromptFile c prompt) := by
  rw [systemPromptFile]
  cases hpath : truthyText c.systemPromptPath with
  | some f => exact h.systemPrompt f hpath
  | none => exact (plainName_hexDigits _ (by decide) (by decide) (by decide)).inside

theorem inside_outputConfigFile {c : CompletionConfig} (h : c.InsidePaths) (schemaStr : String) :
    Inside (outputConfigFile c schemaStr) := by
  rw [outputConfigFile]
  cases hpath : truthyText c.outputConfigPath with
  | some f => exact h.outputConfig f hpath
  | none => exact (plainName_hexDigits _ (by decide) (by decide) (by decide)).inside

/-- Serialising writes below the directory it is given. -/
theorem path_serializeActions {c : CompletionConfig} (h : c.InsidePaths) {dir : List String}
    {action : Action} (ha : action ∈ serializeActions c dir) :
    ∃ rest, Plain rest ∧ action.path = dir ++ rest := by
  rcases List.mem_cons.mp ha with rfl | ha
  · exact ⟨[], fun c hc ↦ absurd hc List.not_mem_nil, (List.append_nil _).symm⟩
  · rcases mem_resourceWrites ha with ⟨prompt, -, rfl⟩ | ⟨model, -, rfl⟩
    · have hf := inside_systemPromptFile h prompt
      exact ⟨_, hf.plain, join_of_inside hf dir⟩
    · have hf := inside_outputConfigFile h model.schemaStr
      exact ⟨_, hf.plain, join_of_inside hf dir⟩

/-- Resolving paths inside a directory reads from that directory alone. -/
theorem resolveCompletionConfig_congr {t t' : FileTree} {dir : List String}
    {raw : CompletionConfig} (h : raw.InsidePaths)
    (hread : ∀ rest, Plain rest → t'.read (dir ++ rest) = t.read (dir ++ rest)) :
    resolveCompletionConfig t' raw dir = resolveCompletionConfig t raw dir := by
  have hload : ∀ f name, Inside f →
      loadResource t' (join dir f) name = loadResource t (join dir f) name := by
    intro f name hf
    rw [loadResource, loadResource, join_of_inside hf, hread _ hf.plain]
  have hprompt : resolveSystemPrompt t' raw dir = resolveSystemPrompt t raw dir := by
    rw [resolveSystemPrompt, resolveSystemPrompt]
    cases hpath : truthyText raw.systemPromptPath with
    | none => rfl
    | some f => simp only [hload f _ (h.systemPrompt f hpath)]
  rw [resolveCompletionConfig, resolveCompletionConfig, hprompt]
  cases hraw' : resolveSystemPrompt t raw dir with
  | error e => rfl
  | ok raw' =>
      have hpaths : raw'.outputConfigPath = raw.outputConfigPath := by
        unfold resolveSystemPrompt at hraw'
        split at hraw'
        · obtain ⟨text, -, hraw'⟩ := Py.bind_eq_ok.mp hraw'
          cases hraw'
          rfl
        · cases hraw'
          rfl
      show resolveOutputConfig t' raw' dir = resolveOutputConfig t raw' dir
      rw [resolveOutputConfig, resolveOutputConfig]
      cases hpath : truthyText raw'.outputConfigPath with
      | none => rfl
      | some f =>
          rw [hpaths] at hpath
          simp only [hload f _ (h.outputConfig f hpath)]

end

namespace SessionFileAdapter

/-- A call of the store that changes it, with the faults that strike it. -/
inductive StoreOp where
  | createSession (s : Session) (faults : List (Option Fault))
  | updateSession (s : Session) (faults : List (Option Fault))
  | deleteSession (id : String) (fault : Option (Errno × (List String → Bool)))

/-- The session a call is for. -/
def StoreOp.id : StoreOp → String
  | createSession s _ => s.id
  | updateSession s _ => s.id
  | deleteSession id _ => id

/-- The session a call writes keeps its resource files inside its directory. -/
def StoreOp.InsidePaths : StoreOp → Prop
  | createSession s _ =>
      s.completionConfig.InsidePaths ∧ s.messageContextStrategy.completionConfig.InsidePaths
  | updateSession s _ =>
      s.completionConfig.InsidePaths ∧ s.messageContextStrategy.completionConfig.InsidePaths
  | deleteSession _ _ => True

theorem plain_sessionDir {a : SessionFileAdapter} {id : String} (h : PlainName id) :
    a.sessionDir id = a.path ++ [id] ∧ Plain (a.path ++ [id]) :=
  ⟨join_of_plainName h a.path, a.plain.append h.plain⟩

theorem node?_deleteSession {a : SessionFileAdapter} {t : FileTree} {id : String}
    (hid : PlainName id) (fault : Option (Errno × (List String → Bool))) {q : List String}
    (hq : ¬ a.path ++ [id] <+: q) : (a.deleteSession t id fault).1.node? q = t.node? q := by
  obtain ⟨hdir, hplain⟩ := plain_sessionDir (a := a) hid
  have hrm := node?_rmtree (t := t) hplain fault hq
  rw [deleteSession, hdir]
  split <;> rename_i hrun <;> rw [hrun] at hrm <;> exact hrm

section

variable [SessionCodec]

/-- The tree a call leaves, and how it ends. -/
def StoreOp.run (a : SessionFileAdapter) (t : FileTree) :
    StoreOp → FileTree × Except PyExc Unit
  | createSession s faults => a.createSession t s faults
  | updateSession s faults => a.updateSession t s faults
  | deleteSession id fault => a.deleteSession t id fault

/-- The tree after a sequence of calls. -/
def runAll (a : SessionFileAdapter) (t : FileTree) (ops : List StoreOp) : FileTree :=
  ops.foldl (fun t op ↦ (op.run a t).1) t

/-! ## What a call changes -/

/-- The resources of a session are written below the directory. -/
theorem path_resourceActions {s : Session} (hmain : s.completionConfig.InsidePaths)
    (hstrategy : s.messageContextStrategy.completionConfig.InsidePaths) {dir : List String}
    {action : Action} (ha : action ∈ resourceActions dir s) :
    ∃ rest, Plain rest ∧ action.path = dir ++ rest := by
  rcases List.mem_append.mp ha with ha | ha
  · exact path_serializeActions hmain ha
  · exact path_serializeActions hstrategy ha

/-- Writing a session changes nothing outside its directory. -/
theorem node?_writeSessionFiles {t : FileTree} {dir : List String} (hdir : Plain dir)
    {s : Session} (hmain : s.completionConfig.InsidePaths)
    (hstrategy : s.messageContextStrategy.completionConfig.InsidePaths)
    (faults : List (Option Fault)) {q : List String} (hq : ¬ dir <+: q) :
    (writeSessionFiles t dir s faults).1.node? q = t.node? q := by
  -- a path in the directory is plain, and is not `q`
  have hin : ∀ rest, Plain rest → Plain (dir ++ rest) ∧ dir ++ rest ≠ q := by
    refine fun rest hrest ↦ ⟨hdir.append hrest, ?_⟩
    rintro rfl
    exact hq (List.prefix_append _ _)
  have hresource : ∀ action ∈ resourceActions dir s, Plain action.path ∧ action.path ≠ q := by
    intro action haction
    obtain ⟨rest, hrest, hpath⟩ := path_resourceActions hmain hstrategy haction
    rw [hpath]
    exact hin rest hrest
  have hfile : ∀ h, ∀ action ∈ fileActions dir s h, Plain action.path ∧ action.path ≠ q := by
    intro h action haction
    rcases List.mem_cons.mp haction with rfl | haction
    · exact hin [sessionInfo] (by decide)
    · rw [List.mem_singleton.mp haction]
      exact hin [sessionMessages] (by decide)
  unfold writeSessionFiles
  split
  · rfl
  · rename_i hid
    split
    · rfl
    · have hexec := node?_exec (t := t) (fun action ha ↦ (hresource action ha).1) faults
        fun action ha ↦ (hresource action ha).2
      split
      · rename_i t₁ e hrun
        rw [hrun] at hexec
        exact hexec
      · rename_i t₁ hrun
        rw [hrun] at hexec
        have hexec' := node?_exec (t := t₁) (fun action ha ↦ (hfile hid action ha).1)
          (faults.drop (resourceActions dir s).length) fun action ha ↦ (hfile hid action ha).2
        split <;> rename_i hrun' <;> rw [hrun'] at hexec' <;> exact hexec'.trans hexec

theorem node?_createSession {a : SessionFileAdapter} {t : FileTree} {s : Session}
    (hid : PlainName s.id) (hmain : s.completionConfig.InsidePaths)
    (hstrategy : s.messageContextStrategy.completionConfig.InsidePaths)
    (faults : List (Option Fault)) {q : List String} (hq : ¬ a.path ++ [s.id] <+: q) :
    (a.createSession t s faults).1.node? q = t.node? q := by
  obtain ⟨hdir, hplain⟩ := plain_sessionDir (a := a) hid
  have hne : a.path ++ [s.id] ≠ q := by
    rintro rfl
    exact hq List.prefix_rfl
  have hmkdir : (t.exec [.mkdir (a.path ++ [s.id])] faults).1.node? q = t.node? q := by
    refine node?_exec ?_ faults ?_
    · intro action ha
      rw [List.mem_singleton.mp ha]
      exact hplain
    · intro action ha
      rw [List.mem_singleton.mp ha]
      exact hne
  rw [createSession, hdir]
  split
  · rename_i hrun
    rw [hrun] at hmkdir
    exact hmkdir
  · rename_i hrun
    rw [hrun] at hmkdir
    exact hmkdir
  · rename_i t₁ hrun
    rw [hrun] at hmkdir
    exact (node?_writeSessionFiles hplain hmain hstrategy faults.tail hq).trans hmkdir

theorem node?_updateSession {a : SessionFileAdapter} {t : FileTree} {s : Session}
    (hid : PlainName s.id) (hmain : s.completionConfig.InsidePaths)
    (hstrategy : s.messageContextStrategy.completionConfig.InsidePaths)
    (faults : List (Option Fault)) {q : List String} (hq : ¬ a.path ++ [s.id] <+: q) :
    (a.updateSession t s faults).1.node? q = t.node? q := by
  obtain ⟨hdir, hplain⟩ := plain_sessionDir (a := a) hid
  rw [updateSession, hdir]
  split
  · exact node?_writeSessionFiles hplain hmain hstrategy faults hq
  · rfl

/-- A call for a plain name changes nothing outside the directory of that name. -/
theorem node?_run {a : SessionFileAdapter} {t : FileTree} {op : StoreOp}
    (hid : PlainName op.id) (hpaths : op.InsidePaths) {q : List String}
    (hq : ¬ a.path ++ [op.id] <+: q) : (op.run a t).1.node? q = t.node? q := by
  cases op with
  | createSession s faults => exact node?_createSession hid hpaths.1 hpaths.2 faults hq
  | updateSession s faults => exact node?_updateSession hid hpaths.1 hpaths.2 faults hq
  | deleteSession id fault => exact node?_deleteSession hid fault hq

/-- **Frame.**  However they end, calls for a plain name change nothing outside the
directory of that name. -/
theorem node?_runAll {a : SessionFileAdapter} {t : FileTree} {id : String} {ops : List StoreOp}
    (hid : PlainName id) (hops : ∀ op ∈ ops, op.id = id ∧ op.InsidePaths) {q : List String}
    (hq : ¬ a.path ++ [id] <+: q) : (a.runAll t ops).node? q = t.node? q := by
  induction ops generalizing t with
  | nil => rfl
  | cons op ops ih =>
      obtain ⟨rfl, hpaths⟩ := hops op List.mem_cons_self
      exact (ih fun op' h ↦ hops op' (List.mem_cons_of_mem _ h)).trans (node?_run hid hpaths hq)

/-! ## What another session sees -/

/-- The resources named in what is stored for a session lie in its directory. -/
def StoredInside (a : SessionFileAdapter) (t : FileTree) (id : String) : Prop :=
  ∀ content raw, t.read (a.path ++ [id] ++ [sessionInfo]) = .ok content →
    SessionCodec.loadInfo content = .ok raw → raw.completionConfig.InsidePaths ∧
      ∀ strategy ∈ raw.messageContextStrategy, strategy.completionConfig.InsidePaths

/-- Trees that agree on the way to the directory of a session and inside it give
the same session. -/
theorem getSession_congr {a : SessionFileAdapter} {t t' : FileTree} {id : String}
    (hid : PlainName id) (hstored : a.StoredInside t id)
    (h : ∀ q, a.path ++ [id] <+: q ∨ q <+: a.path ++ [id] → t'.node? q = t.node? q) :
    a.getSession t' id = a.getSession t id := by
  obtain ⟨hdir, hplain⟩ := plain_sessionDir (a := a) hid
  have hread : ∀ rest, Plain rest →
      t'.read (a.path ++ [id] ++ rest) = t.read (a.path ++ [id] ++ rest) := by
    intro rest hrest
    refine read_congr (hplain.append hrest) fun q hq ↦ h q ?_
    exact List.prefix_or_prefix_of_prefix (List.prefix_append _ _) hq
  have hfile : ∀ (α : Type) (load : String → Except PyExc α) (name missing denied : String),
      Plain [name] → readFile t' (a.path ++ [id] ++ [name]) load missing denied =
        readFile t (a.path ++ [id] ++ [name]) load missing denied := by
    intro α load name missing denied hname
    rw [readFile, readFile, hread [name] hname]
  rw [getSession, getSession, hdir, hfile _ _ _ _ _ (by decide)]
  cases hraw : readFile t (a.path ++ [id] ++ [sessionInfo]) SessionCodec.loadInfo
      "File with part of session info not found: "
      "Permission denied when reading session info file: " with
  | error e => rfl
  | ok raw =>
      have hinside : raw.completionConfig.InsidePaths ∧
          ∀ strategy ∈ raw.messageContextStrategy, strategy.completionConfig.InsidePaths := by
        unfold readFile at hraw
        split at hraw
        · rename_i content hcontent
          exact hstored content raw hcontent hraw
        all_goals cases hraw
      have hresolve : resolveInfo t' (a.path ++ [id]) raw = resolveInfo t (a.path ++ [id]) raw := by
        rw [resolveInfo, resolveInfo, resolveCompletionConfig_congr hinside.1 hread]
        cases hs : raw.messageContextStrategy with
        | none => rfl
        | some strategy =>
            simp only [resolveCompletionConfig_congr (hinside.2 strategy hs) hread]
      simp only [bind, Except.bind, hresolve,
        hfile _ _ _ _ _ (show Plain [sessionMessages] by decide)]

end

/-- Whether `get_session_ids` lists an identifier. -/
def lists (a : SessionFileAdapter) (t : FileTree) (id : String) : Except PyExc Bool :=
  (a.getSessionIds t).map fun ids ↦ decide (id ∈ ids)

theorem lists_congr {a : SessionFileAdapter} {t t' : FileTree} {id : String}
    (h : ∀ q, q <+: a.path ++ [id] → t'.node? q = t.node? q) : a.lists t' id = a.lists t id := by
  have hmem : id ∈ t'.subdirs a.path ↔ id ∈ t.subdirs a.path := by
    rw [mem_subdirs_iff, mem_subdirs_iff, h _ List.prefix_rfl]
  rw [lists, lists, getSessionIds, getSessionIds, h a.path (List.prefix_append _ _)]
  split
  · exact congrArg Except.ok (decide_eq_decide.mpr hmem)
  · rfl
  · rfl

/-- A path on the way to a directory or inside it is not inside its sibling. -/
theorem not_prefix_of_sibling {p q : List String} {x y : String} (hxy : x ≠ y)
    (hq : p ++ [y] <+: q ∨ q <+: p ++ [y]) : ¬ p ++ [x] <+: q := by
  intro hx
  have heq : p ++ [x] = p ++ [y] := by
    rcases hq with hy | hy
    · refine (List.prefix_of_prefix_length_le hx hy ?_).eq_of_length ?_
      · rw [List.length_append, List.length_append]
        rfl
      · rw [List.length_append, List.length_append]
        rfl
    · refine (hx.trans hy).eq_of_length ?_
      rw [List.length_append, List.length_append]
      rfl
  exact hxy (List.singleton_inj.mp (List.append_cancel_left heq))

/-! ## A store to evaluate calls on -/

/-- A session to store. -/
def sampleSession (id : String) : Session :=
  .init (.port "main") id ⟨0⟩ .sample none ⟨0⟩ (.init none)
    (.dummy ⟨⟨.decorated (.port "summariser") ⟨0⟩ none, .sample, []⟩⟩)

/-- The information file of `sampleSession`. -/
def sampleInfoText (id : String) : String :=
  "\x7b\"id\": \"" ++ id ++ "\", \"created_at\": \"0001-01-01T00:00:00\", " ++
    "\"completion_config\": " ++ sampleConfigText ++ ", \"statistics\": null, " ++
    "\"message_context_strategy\": \x7b\"type\": \"dummy\", \"metadata\": \x7b\x7d, " ++
    "\"completion_config\": " ++ sampleConfigText ++ "\x7d\x7d"

/-- What is read from the information file of the session `b`. -/
def sampleInfo : SessionInfoDto where
  id := "b"
  createdAt := ⟨0⟩
  completionConfig := .sample
  messageContextStrategy := some ⟨"dummy", ∅, .sample⟩
  id_ne := by decide

/-- The codec on the files of sample sessions; of the information files it reads
only that of `b`. -/
@[reducible] def sampleCodec : SessionCodec where
  digest _ := 0
  loadSchema _ := .error (.valueError "Invalid JSON for output_config")
  dumpModel _ := .ok ()
  dumpInfo info := sampleInfoText info.id
  loadInfo text :=
    if text = sampleInfoText "b" then .ok sampleInfo
    else .error (.valueError "Invalid JSON in session info file")
  dumpMessages _ := "\x7b\"records\": []\x7d"
  loadMessages text :=
    if text = "\x7b\"records\": []\x7d" then .ok ⟨[]⟩
    else .error (.valueError "Invalid JSON in session info file")

/-- The store with the session `b` in it. -/
def sampleTree : FileTree :=
  (@createSession sampleCodec sampleStore ⟨(∅ : OrderedDict _ _).set ["sessions"] .dir⟩
    (sampleSession "b") []).1

/-- Two identifiers that lead out of their own directory: deleting `.` deletes every
session, and creating `../out` makes a directory next to the store. -/
theorem ids_lead_elsewhere :
    (@getSession sampleCodec sampleStore sampleTree "b").isOk = true ∧
      sampleStore.lists sampleTree "b" = .ok true ∧
      (@getSession sampleCodec sampleStore
        (@runAll sampleCodec sampleStore sampleTree [.deleteSession "." none]) "b").isOk = false ∧
      sampleStore.lists (@runAll sampleCodec sampleStore sampleTree [.deleteSession "." none]) "b" ≠
        .ok true ∧
      sampleTree.node? ["out"] = none ∧
      (@runAll sampleCodec sampleStore sampleTree
        [.createSession (sampleSession "../out") []]).node? ["out"] = some .dir := by
  decide +kernel

/-- Calls for one plain name, however they end, change neither what the store
returns or lists for another, nor anything outside the directory of the first. -/
theorem sessions_isolated [SessionCodec] {a : SessionFileAdapter} {t : FileTree} {x y : String}
    {ops : List StoreOp} (hx : PlainName x) (hy : PlainName y) (hxy : x ≠ y)
    (hops : ∀ op ∈ ops, op.id = x ∧ op.InsidePaths) (hstored : a.StoredInside t y) :
    a.getSession (a.runAll t ops) y = a.getSession t y ∧
      a.lists (a.runAll t ops) y = a.lists t y ∧
        ∀ q, ¬ a.path ++ [x] <+: q → (a.runAll t ops).node? q = t.node? q := by
  have hframe : ∀ q, ¬ a.path ++ [x] <+: q → (a.runAll t ops).node? q = t.node? q :=
    fun q hq ↦ node?_runAll hx hops hq
  refine ⟨getSession_congr hy hstored fun q hq ↦ ?_, lists_congr fun q hq ↦ ?_, hframe⟩
  · exact hframe q (not_prefix_of_sibling hxy hq)
  · exact hframe q (not_prefix_of_sibling hxy (Or.inr hq))

/-- Calls for `a` that succeed, fail half way and delete leave `b` as it is. -/
theorem sessions_isolated_sample :
    (@getSession sampleCodec sampleStore (@runAll sampleCodec sampleStore sampleTree
        [.createSession (sampleSession "a") [],
          .updateSession (sampleSession "a") [none, none, some ⟨.denied, some "\x7b"⟩],
          .deleteSession "a" none]) "b").isOk = true := by
  have hinside : CompletionConfig.sample.InsidePaths :=
    ⟨fun f hf ↦ absurd hf (Option.not_mem_none f), fun f hf ↦ absurd hf (Option.not_mem_none f)⟩
  have hops : ∀ op ∈ [StoreOp.createSession (sampleSession "a") [],
      .updateSession (sampleSession "a") [none, none, some ⟨.denied, some "\x7b"⟩],
      .deleteSession "a" none], op.id = "a" ∧ op.InsidePaths := by
    intro op hop
    rcases List.mem_cons.mp hop with rfl | hop
    · exact ⟨rfl, hinside, hinside⟩
    · rcases List.mem_cons.mp hop with rfl | hop
      · exact ⟨rfl, hinside, hinside⟩
      · rw [List.mem_singleton.mp hop]
        exact ⟨rfl, trivial⟩
  have hstored : @StoredInside sampleCodec sampleStore sampleTree "b" := by
    intro content raw _ hload
    change (if content = sampleInfoText "b" then Except.ok sampleInfo else _) = _ at hload
    split at hload
    · cases hload
      refine ⟨hinside, fun strategy hs ↦ ?_⟩
      cases hs
      exact hinside
    · cases hload
  have hiso := @sessions_isolated sampleCodec sampleStore sampleTree "a" "b" _ (by decide)
    (by decide) (by decide) hops hstored
  rw [hiso.1]
  decide +kernel

end SessionFileAdapter
