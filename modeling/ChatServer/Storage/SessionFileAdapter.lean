import ChatServer.Domain.Session
import ChatServer.Storage.ConfigLoader

/-!
# The file store of sessions

`session_file_adapter.py`.  A session is a directory named by its identifier,
with one file for what it is, one for its messages, and the files of its
configurations.

The methods that write take the faults that strike them and return the tree they
leave together with how they end.  How the two files are encoded is up to the
class `SessionCodec`; what they are decoded to is compared with what was encoded
only where a theorem says so.
-/

open FileTree

/-- `SessionState`. -/
structure SessionState where
  id : String
  createdAt : Datetime
  completionConfig : CompletionConfig
  statistics : Option StatsData := none
  strategyType : String
  strategyMetadata : OrderedDict String Json := ∅
  strategyCompletionConfig : CompletionConfig
  strategyRecords : List MessageRecord := []
  id_ne : id ≠ ""

/-- `MessageRecordDto`. -/
structure MessageRecordDto where
  id : String
  prevId : Option String := none
  message : Message
deriving DecidableEq

/-- `MessageContextStrategyInfoDto`. -/
structure MessageContextStrategyInfoDto where
  type : String
  metadata : OrderedDict String Json
  completionConfig : CompletionConfig

/-- `SessionInfoDto`. -/
structure SessionInfoDto where
  id : String
  createdAt : Datetime
  completionConfig : CompletionConfig
  statistics : Option StatsData := none
  messageContextStrategy : Option MessageContextStrategyInfoDto := none
  id_ne : id ≠ ""

/-- `SessionMessagesDto`. -/
structure SessionMessagesDto where
  records : List MessageRecordDto := []

/-- How the two files of a session are written and read: `json` and the pydantic
models. -/
class SessionCodec extends ConfigCodec where
  dumpInfo : SessionInfoDto → String
  loadInfo : String → Except PyExc SessionInfoDto
  dumpMessages : SessionMessagesDto → String
  loadMessages : String → Except PyExc SessionMessagesDto

/-- `SessionFileAdapter`: the storage directory, with `..` already followed. -/
structure SessionFileAdapter where
  path : List String
  plain : Plain path

/-! ## From sessions to the contents of files and back -/

namespace MessageRecordDto

/-- The DTO of a record. -/
def ofRecord (r : MessageRecord) : MessageRecordDto := ⟨r.id.str, r.prevId.map (·.str), r.message⟩

/-- The record of a DTO. -/
def toRecord (d : MessageRecordDto) : Except PyExc MessageRecord := do
  let id ← UUID.parse d.id
  let prevId ←
    match d.prevId with
    | some s => (UUID.parse s).map some
    | none => .ok none
  return ⟨id, prevId, d.message⟩

/-- A record survives its DTO. -/
theorem toRecord_ofRecord (r : MessageRecord) : (ofRecord r).toRecord = .ok r := by
  obtain ⟨id, prevId, message⟩ := r
  cases prevId with
  | none =>
      simp only [toRecord, ofRecord, UUID.parse_str, Option.map_none]
      rfl
  | some prev =>
      simp only [toRecord, ofRecord, UUID.parse_str, Option.map_some]
      rfl

theorem mapM_toRecord (records : List MessageRecord) :
    (records.map ofRecord).mapM toRecord = .ok records := by
  induction records with
  | nil => rfl
  | cons r records ih =>
      rw [List.map_cons, List.mapM_cons, toRecord_ofRecord, ih]
      rfl

end MessageRecordDto

namespace SessionFileAdapter

/-- `SESSION_INFO`. -/
def sessionInfo : String := "session_info"

/-- `SESSION_MESSAGES`. -/
def sessionMessages : String := "session_messages"

/-- `self._path / id`. -/
def sessionDir (a : SessionFileAdapter) (id : String) : List String := join a.path id

section

variable [SessionCodec]

/-- What is written to the information file. -/
def infoOf (s : Session) (h : s.id ≠ "") : SessionInfoDto where
  id := s.id
  createdAt := s.createdAt
  completionConfig := serializedConfig s.completionConfig
  statistics := s.usageStats.lifecycleTotalData.orNone
  messageContextStrategy := some
    { type := s.messageContextStrategy.strategyType
      metadata := s.messageContextStrategy.getMetadata
      completionConfig := serializedConfig s.messageContextStrategy.completionConfig }
  id_ne := h

/-- What is written to the messages file. -/
def messagesOf (s : Session) : SessionMessagesDto where
  records := s.messageContextStrategy.getHistory.map MessageRecordDto.ofRecord

/-- `info.model_dump(mode="json")`, which fails if an output model does. -/
def dumpModels (s : Session) : Except PyExc Unit := do
  dumpConfig s.completionConfig
  dumpConfig s.messageContextStrategy.completionConfig

theorem exists_of_dumpModels {s : Session} {e : PyExc} (h : dumpModels s = .error e) :
    ∃ model, ConfigCodec.dumpModel model = .error e := by
  cases hmain : dumpConfig s.completionConfig with
  | error e' =>
      rw [dumpModels, hmain] at h
      cases h
      exact exists_of_dumpConfig hmain
  | ok _ =>
      rw [dumpModels, hmain] at h
      exact exists_of_dumpConfig h

/-- The calls that write the resources of a session. -/
def resourceActions (dir : List String) (s : Session) : List Action :=
  serializeActions s.completionConfig dir ++
    serializeActions s.messageContextStrategy.completionConfig dir

/-- The calls that write its two files. -/
def fileActions (dir : List String) (s : Session) (h : s.id ≠ "") : List Action :=
  [.write (dir ++ [sessionInfo]) (SessionCodec.dumpInfo (infoOf s h)),
    .write (dir ++ [sessionMessages]) (SessionCodec.dumpMessages (messagesOf s))]

/-- `_write_session_files`. -/
def writeSessionFiles (t : FileTree) (dir : List String) (s : Session)
    (faults : List (Option Fault)) : FileTree × Except PyExc Unit :=
  if h : s.id = "" then
    (t, .error (.valueError "String should have at least 1 character"))
  else
    match dumpModels s with
    | .error e => (t, .error e)
    | .ok () =>
        match t.exec (resourceActions dir s) faults with
        | (t, some e) => (t, .error (.ofErrno (pathText dir) e))
        | (t, none) =>
            match t.exec (fileActions dir s h)
                (faults.drop (resourceActions dir s).length) with
            | (t, some .denied) => (t, .error (.permissionError
                s!"Permission denied when writing session files: {pathText dir}"))
            | (t, some _) =>
                (t, .error (.osError s!"Failed to write session files: {pathText dir}"))
            | (t, none) => (t, .ok ())

/-- When nothing fails, the resources of a session are those of its two configurations,
serialised one after the other. -/
theorem serialize_of_resourceActions {t t' : FileTree} {dir : List String} {s : Session}
    {faults : List (Option Fault)} (hdump : dumpModels s = .ok ())
    (h : t.exec (resourceActions dir s) faults = (t', none)) :
    ∃ t₁ faults₁,
      serializeCompletionConfig t s.completionConfig dir faults =
          (t₁, .ok (serializedConfig s.completionConfig)) ∧
        serializeCompletionConfig t₁ s.messageContextStrategy.completionConfig dir faults₁ =
          (t', .ok (serializedConfig s.messageContextStrategy.completionConfig)) := by
  obtain ⟨t₁, faults₁, hmain, hstrategy⟩ := exec_append_ok h
  obtain ⟨_, hdumpMain, hdumpStrategy⟩ := Py.bind_eq_ok.mp hdump
  exact ⟨t₁, faults₁, serializeCompletionConfig_eq_ok_iff.mpr ⟨hdumpMain, hmain, rfl⟩,
    serializeCompletionConfig_eq_ok_iff.mpr ⟨hdumpStrategy, hstrategy, rfl⟩⟩

/-- `create_session`. -/
def createSession (a : SessionFileAdapter) (t : FileTree) (s : Session)
    (faults : List (Option Fault)) : FileTree × Except PyExc Unit :=
  let dir := a.sessionDir s.id
  match t.exec [.mkdir dir] faults with
  | (t, some .alreadyExists) => (t, .error (.fileExistsError
      s!"Session directory already exists: {pathText dir}"))
  | (t, some e) => (t, .error (.ofErrno (pathText dir) e))
  | (t, none) => writeSessionFiles t dir s faults.tail

/-- `update_session`. -/
def updateSession (a : SessionFileAdapter) (t : FileTree) (s : Session)
    (faults : List (Option Fault)) : FileTree × Except PyExc Unit :=
  let dir := a.sessionDir s.id
  if t.pathExists dir then writeSessionFiles t dir s faults
  else (t, .error (.fileNotFoundError s!"Session directory not found: {pathText dir}"))

/-- `delete_session`. -/
def deleteSession (a : SessionFileAdapter) (t : FileTree) (id : String)
    (fault : Option (Errno × (List String → Bool))) : FileTree × Except PyExc Unit :=
  let dir := a.sessionDir id
  match t.rmtree dir fault with
  | (t, none) => (t, .ok ())
  | (t, some .notFound) => (t, .error (.fileNotFoundError
      s!"Session directory not found: {pathText dir}"))
  | (t, some .denied) => (t, .error (.permissionError
      s!"Permission denied when deleting session directory: {pathText dir}"))
  | (t, some e) => (t, .error (.ofErrno (pathText dir) e))

/-- `get_session_ids`. -/
def getSessionIds (a : SessionFileAdapter) (t : FileTree) : Except PyExc (List String) :=
  match t.node? a.path with
  | some .dir => .ok (t.subdirs a.path)
  | some (.file _) => .error (.ofErrno (pathText a.path) .notADirectory)
  | none => .error (.ofErrno (pathText a.path) .notFound)

/-- How `get_session` reads one of its two files. -/
def readFile {α : Type} (t : FileTree) (path : List String) (load : String → Except PyExc α)
    (missing denied : String) : Except PyExc α :=
  match t.read path with
  | .ok content => load content
  | .error .notFound => .error (.fileNotFoundError (missing ++ pathText path))
  | .error .denied => .error (.permissionError (denied ++ pathText path))
  | .error e => .error (.ofErrno (pathText path) e)

/-- Resolve the configurations of an information file. -/
def resolveInfo (t : FileTree) (dir : List String) (raw : SessionInfoDto) :
    Except PyExc SessionInfoDto := do
  let completionConfig ← resolveCompletionConfig t raw.completionConfig dir
  let messageContextStrategy ←
    match raw.messageContextStrategy with
    | none => .ok none
    | some strategy =>
        (resolveCompletionConfig t strategy.completionConfig dir).map fun c ↦
          some { strategy with completionConfig := c }
  return { raw with completionConfig, messageContextStrategy }

/-- `get_session`. -/
def getSession (a : SessionFileAdapter) (t : FileTree) (id : String) :
    Except PyExc SessionState := do
  let dir := a.sessionDir id
  let raw ← readFile t (dir ++ [sessionInfo]) SessionCodec.loadInfo
    "File with part of session info not found: "
    "Permission denied when reading session info file: "
  let info ← resolveInfo t dir raw
  let messages ← readFile t (dir ++ [sessionMessages]) SessionCodec.loadMessages
    "File with part of session info not found: "
    "Permission denied when reading session info file: "
  match info.messageContextStrategy with
  | none => .error (.valueError s!"Session {id} is missing message context strategy metadata")
  | some strategy => do
      let records ← messages.records.mapM MessageRecordDto.toRecord
      return { id := info.id, createdAt := info.createdAt,
               completionConfig := info.completionConfig, statistics := info.statistics,
               strategyType := strategy.type, strategyMetadata := strategy.metadata,
               strategyCompletionConfig := strategy.completionConfig,
               strategyRecords := records, id_ne := info.id_ne }

end

/-! ## A store to evaluate calls on -/

/-- A store in the directory `/sessions`. -/
def sampleStore : SessionFileAdapter := ⟨["sessions"], by decide⟩

/-- `CompletionConfig.sample` in an information file. -/
def sampleConfigText : String :=
  "\x7b\"provider\": \"p\", \"model\": \"m\", \"max_tokens\": 1, \"system_prompt\": null, " ++
    "\"system_prompt_path\": null, \"temperature\": null, \"top_k\": null, \"top_p\": null, " ++
    "\"stop_sequences\": null, \"output_config\": null, \"output_config_path\": null\x7d"

end SessionFileAdapter
