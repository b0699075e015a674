import ChatServer.Service.RawSession
import ChatServer.Web.Server

/-!
# What the server sees of a directory it cannot load

The routes and the WebSocket handler load a session inside `handle_storage_errors` and answer
a `FileNotFoundError` and a `StorageError`; anything else is raised through them.
`execute_handled` says on which directories they have something to answer.
-/

open FileTree

/-- A load ends in one of the three ways the routes expect. -/
def Handled {α : Type} : Except WebExc α → Prop
  | .ok _ => True
  | .error (.raised (.fileNotFoundError _)) => True
  | .error (.raised _) => False
  | .error (.storageError _ _) => True

theorem handled_handleStorageErrors {α : Type} (operation sessionId : String)
    (x : Except PyExc α) :
    Handled (handleStorageErrors operation sessionId x) ↔ Py.RaisesOnly PyExc.Contained x := by
  cases x with
  | ok a => exact iff_of_true trivial (Py.raisesOnly_ok a)
  | error e =>
      rw [Py.raisesOnly_error]
      cases e <;> exact Iff.rfl

/-- What is handled is answered: with 404 or 500, or by closing with 4404 or 4500. -/
theorem Server.onLoadFails_of_handled {α : Type} {e : WebExc}
    (h : Handled (.error e : Except WebExc α)) (w : Server) (r : ℕ) :
    (∀ route, ∃ status detail, (status = 404 ∨ status = 500) ∧ w.onLoadFails r e (.get route) =
        (w.setRequest r .ended, [.answers r (.error status detail)])) ∧
      ∃ code, (code = 4404 ∨ code = 4500) ∧
        w.onLoadFails r e .connect = (w.setRequest r (.refusing code), []) := by
  cases e with
  | storageError message original =>
      exact ⟨fun route ↦ ⟨500, _, Or.inr rfl, rfl⟩, 4500, Or.inr rfl, rfl⟩
  | raised e =>
      cases e with
      | fileNotFoundError message =>
          exact ⟨fun route ↦ ⟨404, _, Or.inl rfl, rfl⟩, 4404, Or.inl rfl, rfl⟩
      | _ => exact h.elim

/-! ## Directories that are not handled -/

namespace App

/-- The information of a session whose prompt is in a file of its own. -/
def danglingText : String :=
  "\x7b\"id\": \"s\", \"created_at\": \"0001-01-01T00:00:00\", \"completion_config\": " ++
    "\x7b\"provider\": \"p\", \"model\": \"m\", \"max_tokens\": 1, " ++
    "\"system_prompt_path\": \"prompt.txt\"\x7d\x7d"

/-- The value of `danglingText`. -/
def danglingInfo : Json :=
  .obj [("id", .str "s"), ("created_at", .str "0001-01-01T00:00:00"),
    ("completion_config", .obj [("provider", .str "p"), ("model", .str "m"),
      ("max_tokens", .int 1), ("system_prompt_path", .str "prompt.txt")])]

/-- The libraries on the texts `[]` and `danglingText`. -/
@[reducible] def danglingCodec : RawCodec where
  loads text :=
    if text = "[]" then .ok (.arr [])
    else if text = danglingText then .ok danglingInfo
    else .error (.decodeError "Expecting value: line 1 column 1 (char 0)")
  createModel _ _ := .ok ⟨"\x7b\x7d"⟩
  recursionLimit := 1000
  validateInfo _ := .error "1 validation error for SessionInfoDto"
  validateMessages _ := .error "1 validation error for SessionMessagesDto"

/-- A directory with an information file and nothing else. -/
def infoOnly (text : String) : Disk := fun p ↦
  if p = ["sessions", "s", "session_info"] then .text text else .absent

set_option maxRecDepth 10000 in
/-- An information file that holds a list raises `AttributeError`, and one whose prompt is gone
raises `SystemExit`. -/
theorem load_escapes :
    @execute danglingCodec sampleFactory sample (infoOnly "[]") "s" =
        .error (.attributeError "'list' object has no attribute 'get'") ∧
      @execute danglingCodec sampleFactory sample (infoOnly danglingText) "s" =
        .error (.systemExit "File with system_prompt not found: '/sessions/s/prompt.txt'") ∧
      ¬ Handled (handleStorageErrors "Failed to load" "s"
        (@execute danglingCodec sampleFactory sample (infoOnly "[]") "s")) ∧
      ¬ Handled (handleStorageErrors "Failed to load" "s"
        (@execute danglingCodec sampleFactory sample (infoOnly danglingText) "s")) := by
  have hlist : @execute danglingCodec sampleFactory sample (infoOnly "[]") "s" =
      .error (.attributeError "'list' object has no attribute 'get'") := by
    rfl
  have hdangling : @execute danglingCodec sampleFactory sample (infoOnly danglingText) "s" =
      .error (.systemExit "File with system_prompt not found: '/sessions/s/prompt.txt'") := by
    rfl
  refine ⟨hlist, hdangling, ?_, ?_⟩
  · rw [hlist]
    exact id
  · rw [hdangling]
    exact id

/-- **Loading.**  Whatever is in the directory of a session, loading it ends in a session, a
`FileNotFoundError` or a `StorageError` exactly if its contents fit; and the routes and the
handler have an answer to both errors. -/
theorem execute_handled [RawCodec] [LlmPortFactory] (app : App) (disk : Disk)
    (operation sessionId : String) :
    (Handled (handleStorageErrors operation sessionId (app.execute disk sessionId)) ↔
        SessionFits disk (app.repository.sessionDir sessionId) sessionId) ∧
      ∀ e, Handled (.error e : Except WebExc RawSession) → ∀ (w : Server) (r : ℕ),
        (∀ route, ∃ status detail, (status = 404 ∨ status = 500) ∧
          w.onLoadFails r e (.get route) =
            (w.setRequest r .ended, [.answers r (.error status detail)])) ∧
        ∃ code, (code = 4404 ∨ code = 4500) ∧
          w.onLoadFails r e .connect = (w.setRequest r (.refusing code), []) := by
  constructor
  · exact (handled_handleStorageErrors _ _ _).trans (raisesOnly_execute app disk sessionId)
  · intro e h w r
    exact Server.onLoadFails_of_handled h w r

/-- The text of a model configuration whose prompt is in a file of its own. -/
def promptedText : String :=
  "\x7b\"provider\": \"p\", \"model\": \"m\", \"max_tokens\": 1, " ++
    "\"system_prompt_path\": \"prompt.txt\"\x7d"

/-- The text of the information of a session that has everything. -/
def wholeText : String :=
  "\x7b\"id\": \"s\", \"created_at\": \"0001-01-01T00:00:00\", \"completion_config\": " ++
    promptedText ++ ", \"statistics\": null, \"message_context_strategy\": " ++
    "\x7b\"type\": \"dummy\", \"metadata\": \x7b\x7d, \"completion_config\": " ++
    promptedText ++ "\x7d\x7d"

/-- The value of `promptedText`. -/
def promptedJson : Json :=
  .obj [("provider", .str "p"), ("model", .str "m"), ("max_tokens", .int 1),
    ("system_prompt_path", .str "prompt.txt")]

/-- The value of `wholeText`. -/
def wholeInfo : Json :=
  .obj [("id", .str "s"), ("created_at", .str "0001-01-01T00:00:00"),
    ("completion_config", promptedJson), ("statistics", .null),
    ("message_context_strategy", .obj [("type", .str "dummy"), ("metadata", .obj []),
      ("completion_config", promptedJson)])]

/-- A configuration with the prompt that was read. -/
def wholeConfig (c : Option RawConfig) : CompletionConfig :=
  { CompletionConfig.sample with systemPrompt := c.bind (·.systemPrompt) }

/-- The libraries on the two files of that session. -/
@[reducible] def wholeCodec : RawCodec where
  loads text :=
    if text = wholeText then .ok wholeInfo
    else if text = "\x7b\"records\": []\x7d" then .ok (.obj [("records", .arr [])])
    else .error (.decodeError "Expecting value: line 1 column 1 (char 0)")
  createModel _ _ := .ok ⟨"\x7b\x7d"⟩
  recursionLimit := 1000
  validateInfo info := .ok
    { sampleInfo none with
      completionConfig := wholeConfig info.completionConfig
      messageContextStrategy := some ⟨"dummy", ∅, wholeConfig info.strategyCompletionConfig⟩ }
  validateMessages _ := .ok ⟨[]⟩

/-- The directory of that session, with its prompt or without. -/
def wholeDisk (prompt : FileRead) : Disk
  | ["sessions", "s", "session_info"] => .text wholeText
  | ["sessions", "s", "session_messages"] => .text "\x7b\"records\": []\x7d"
  | ["sessions", "s", "prompt.txt"] => prompt
  | _ => .absent

set_option maxRecDepth 10000 in
/-- With its prompt the directory is loaded.  Without its information file a connection is
closed with one of the two codes. -/
theorem execute_handled_whole :
    @SessionFits wholeCodec sampleFactory (wholeDisk (.text "a")) ["sessions", "s"] "s" ∧
      ((@execute wholeCodec sampleFactory sample (wholeDisk (.text "a")) "s").toOption.map
        fun s ↦ s.state.completionConfig.systemPrompt) = some (some "a") ∧
      ¬ @SessionFits wholeCodec sampleFactory (wholeDisk .absent) ["sessions", "s"] "s" ∧
      ∃ message, handleStorageErrors "Failed to load" "s"
          (@execute wholeCodec sampleFactory sample (fun _ ↦ .absent) "s") =
        .error (.raised (.fileNotFoundError message)) ∧
      ∀ (w : Server) (r : ℕ), ∃ code, (code = 4404 ∨ code = 4500) ∧
        w.onLoadFails r (.raised (.fileNotFoundError message)) .connect =
          (w.setRequest r (.refusing code), []) := by
  have hloaded := @execute_handled wholeCodec sampleFactory sample (wholeDisk (.text "a"))
    "Failed to load" "s"
  have hgone := @execute_handled wholeCodec sampleFactory sample (wholeDisk .absent)
    "Failed to load" "s"
  have hraised : @execute wholeCodec sampleFactory sample (wholeDisk .absent) "s" =
      .error (.systemExit "File with system_prompt not found: '/sessions/s/prompt.txt'") := rfl
  refine ⟨hloaded.1.mp trivial, rfl, fun hfits ↦ ?_, _, rfl, fun w r ↦ ?_⟩
  · have hhandled := hgone.1.mpr hfits
    rw [hraised] at hhandled
    exact hhandled
  · exact (hloaded.2 (.raised (.fileNotFoundError
      "File with part of session info not found: /sessions/s/session_info")) trivial w r).2

end App
