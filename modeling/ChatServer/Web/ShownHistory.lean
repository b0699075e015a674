import ChatServer.Conversation.History
import ChatServer.Web.Server

/-!
# The history a client shows

`get_session` of `session_routes.py` answers with a `SessionDetail`.  Its `messages` is a bare
`list`, so pydantic knows nothing of what is in it and writes a record, which is a named tuple,
as the array of its fields.  `_select_session` of `client.py` knows nothing of the server's
types either: it reads the body as JSON of any shape and asks each message for its `role` and
its `content`, as it would ask an object.

How the other fields of a `SessionDetail` are written does not matter to the history, and comes
from the class `DetailCodec`.
-/

/-- How pydantic writes the fields of a `SessionDetail` beside its messages. -/
class DetailCodec where
  dumpDatetime : Datetime → Json
  /-- It fails on a configuration with an output model. -/
  dumpConfig : CompletionConfig → Except PyExc Json
  dumpStatistics : StatsData → Json

/-! ## The body of the answer -/

/-- A `dict[str, str]` as JSON. -/
def Message.dump (m : Message) : Json := .obj (m.entries.map fun e ↦ (e.1, .str e.2))

/-- A `MessageRecord` in an untyped list: the array of its fields. -/
def MessageRecord.dump (r : MessageRecord) : Json :=
  .arr [.str r.id.str, (r.prevId.map fun u ↦ Json.str u.str).getD .null, r.message.dump]

section

variable [DetailCodec]

/-- `SessionDetail` as JSON. -/
def SessionInfo.dumpDetail (info : SessionInfo) (messages : List MessageRecord) :
    Except PyExc Json := do
  let completionConfig ← DetailCodec.dumpConfig info.completionConfig
  return .obj [("id", .str info.id), ("created_at", DetailCodec.dumpDatetime info.createdAt),
    ("completion_config", completionConfig),
    ("statistics", (info.statistics.map DetailCodec.dumpStatistics).getD .null),
    ("messages", .arr (messages.map (·.dump)))]

/-- The body of a reply with a `SessionDetail`. -/
def Reply.detailBody : Reply → Option (Except PyExc Json)
  | .detail sessionInfo records => some (sessionInfo.dumpDetail records)
  | _ => none

end

/-- The fields of a session that was made at the first instant and has no statistics. -/
@[reducible] def DetailCodec.sample : DetailCodec where
  dumpDatetime _ := .str "0001-01-01T00:00:00"
  dumpConfig c :=
    let text := fun o ↦ (o.map Json.str).getD .null
    match c.outputConfig with
    | some _ => .error (.other "PydanticSerializationError" "Unable to serialize unknown type")
    | none => .ok (.obj [("provider", .str c.provider), ("model", .str c.model),
        ("max_tokens", .int c.maxTokens), ("system_prompt", text c.systemPrompt),
        ("system_prompt_path", text c.systemPromptPath),
        ("temperature", (c.temperature.map Json.float).getD .null),
        ("top_k", (c.topK.map fun k ↦ Json.int k).getD .null),
        ("top_p", (c.topP.map Json.float).getD .null),
        ("stop_sequences", (c.stopSequences.map fun l ↦ Json.arr (l.map .str)).getD .null),
        ("output_config", .null), ("output_config_path", text c.outputConfigPath)])
  dumpStatistics _ := .obj []

/-! ## The client -/

/-- A message in the history panel. -/
structure Bubble where
  cssClass : String
  content : Json

namespace ChatApp

/-- One turn of the loop of `_select_session`. -/
def bubble (msg : Json) : Except PyExc Bubble := do
  let role ← msg.getItem "role"
  let cssClass := if role.isText "user" then "user-message" else "assistant-message"
  let content ← msg.getItem "content"
  return ⟨cssClass, content⟩

/-- The loop: what it has mounted, and what it raises if it does. -/
def mountAll : List Json → List Bubble × Option PyExc
  | [] => ([], none)
  | msg :: msgs =>
      match bubble msg with
      | .error e => ([], some e)
      | .ok b =>
          let (bs, e) := mountAll msgs
          (b :: bs, e)

/-- What `_select_session` makes of `data`, the body of the answer.  When it raises, the
WebSocket worker is not started. -/
def showHistory (data : Json) : List Bubble × Option PyExc :=
  match data.get "messages" with
  | .error e => ([], some e)
  | .ok messages =>
      let messages := messages.getD (.arr [])
      match messages.elements? with
      | none => ([], some (.typeError s!"'{messages.typeName}' object is not iterable"))
      | some msgs => mountAll msgs

end ChatApp

/-! ## Agreement -/

/-- A bubble shows a record: its content, in the style of its role. -/
def MessageRecord.ShownAs (r : MessageRecord) (b : Bubble) : Prop :=
  ∃ role content, r.message.get? "role" = some role ∧ r.message.get? "content" = some content ∧
    b = ⟨if role = "user" then "user-message" else "assistant-message", .str content⟩

namespace ChatApp

/-- The client shows exactly the records, in order, and raises nothing. -/
def Shows (data : Json) (records : List MessageRecord) : Prop :=
  ∃ bubbles, showHistory data = (bubbles, none) ∧ List.Forall₂ MessageRecord.ShownAs records bubbles

/-- The first record stops the loop: an array has no `role`. -/
theorem mountAll_dump (r : MessageRecord) (msgs : List Json) :
    mountAll (r.dump :: msgs) =
      ([], some (.typeError "list indices must be integers or slices, not str")) := rfl

section

variable [DetailCodec]

/-- The client finds the messages in the body. -/
theorem showHistory_dumpDetail {info : SessionInfo} {messages : List MessageRecord} {data : Json}
    (h : info.dumpDetail messages = .ok data) :
    showHistory data = mountAll (messages.map (·.dump)) := by
  obtain ⟨completionConfig, -, hdata⟩ := Py.bind_eq_ok.mp h
  cases hdata
  rfl

/-- A history that is not empty shows nothing. -/
theorem showHistory_of_ne_nil {info : SessionInfo} {messages : List MessageRecord} {data : Json}
    (h : info.dumpDetail messages = .ok data) (hne : messages ≠ []) :
    showHistory data =
      ([], some (.typeError "list indices must be integers or slices, not str")) := by
  obtain ⟨r, rest, rfl⟩ := List.exists_cons_of_ne_nil hne
  rw [showHistory_dumpDetail h, List.map_cons]
  exact mountAll_dump r (rest.map (·.dump))

/-- **The history is shown only while it is empty.**  Of the answer to `GET /session/{id}` the
client shows exactly the records of the session when there are none; otherwise it raises before
the first of them. -/
theorem shows_iff {s : Session} {data : Json}
    (h : (GetRoute.session.show s).detailBody = some (.ok data)) :
    Shows data s.messages ↔ s.messages = [] := by
  have hbody : SessionInfo.dumpDetail _ s.messages = .ok data := Option.some.inj h
  constructor
  · rintro ⟨bubbles, hshow, -⟩
    by_contra hne
    rw [showHistory_of_ne_nil hbody hne] at hshow
    cases hshow
  · intro hempty
    refine ⟨[], ?_, ?_⟩
    · rw [showHistory_dumpDetail hbody, hempty]
      rfl
    · rw [hempty]
      exact .nil

end

/-- A session that was just made is shown. -/
theorem shows_sampleDummy :
    ∃ data, @Reply.detailBody .sample (GetRoute.session.show Session.sampleDummy) =
        some (.ok data) ∧ Shows data Session.sampleDummy.messages :=
  ⟨_, rfl, (@shows_iff .sample Session.sampleDummy _ rfl).mpr rfl⟩

/-- After its first call a session is not shown: the client raises at the question. -/
theorem history_not_shown :
    ∃ s o data, (@Session.machine .asciiOnly).run (Session.sampleDummy, none)
        [.acompletion "hi" true (.ofNat 1), .event (.textChunk "yo"), .next,
          .mainEnds (.ofNat 2) 0, .next] = some ((s, none), o) ∧
      @Reply.detailBody .sample (GetRoute.session.show s) = some (.ok data) ∧
      s.messages.map (·.message) = [Message.of "user" "hi", Message.of "assistant" "yo"] ∧
      showHistory data =
        ([], some (.typeError "list indices must be integers or slices, not str")) ∧
      ¬ Shows data s.messages := by
  refine ⟨_, _, _, rfl, rfl, rfl, rfl, ?_⟩
  rintro ⟨bubbles, hshow, -⟩
  cases hshow

end ChatApp
