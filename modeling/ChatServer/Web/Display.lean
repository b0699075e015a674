import ChatServer.Web.ShownHistory
import ChatServer.Web.TurnRecords

/-!
# What a client sees of its turns

The `#message-history` panel of `client.py` while one client talks to the server.
`_send_message` mounts the question and an empty answer, and the handlers of the posted
messages fill the answer in or mount an error.  The frames reach the client in the order in
which the tasks send them, through the chat of `ChatServer.Web.Client`, and what links a
frame to the question it answers is only that order.

While no message is taken too early and every turn ends once (`Chat.AfterTheEnd`), that is
enough.  A client that is not streaming
sees, for every message it sent, exactly what the turn for that message told
(`Viewer.displays_of_run`), and whatever the session has recorded of a turn is what stands in
the first bubbles of that turn (`Viewer.records_of_run`).
-/

open StreamTask

/-! ## The panel -/

/-- The answer `ChatApp` is putting together, and what its history panel shows. -/
structure Screen where
  currentAssistantText : String := ""
  history : List Bubble := []

/-- How an error is mounted. -/
def ServerFrame.errorBubble? : ServerFrame → Option Bubble
  | .error code message => some ⟨"error-message", .str s!"[{code}] {message}"⟩
  | _ => none

namespace Screen

/-- `bubbles[-1].update(text)`, for the answers among the bubbles. -/
def updateLast (text : String) : List Bubble → List Bubble
  | [] => []
  | b :: bs =>
      if bs.any (·.cssClass == "assistant-message") then b :: updateLast text bs
      else if b.cssClass == "assistant-message" then { b with content := .str text } :: bs
      else b :: bs

/-- What `_send_message` mounts. -/
def sendMessage (s : Screen) (content : String) : Screen where
  currentAssistantText := ""
  history := s.history ++
    [⟨"user-message", .str content⟩, ⟨"assistant-message", .str ""⟩]

/-- `on_stream_chunk`. -/
def onStreamChunk (s : Screen) (delta : String) : Screen where
  currentAssistantText := s.currentAssistantText ++ delta
  history := updateLast (s.currentAssistantText ++ delta) s.history

/-- `on_stream_done`. -/
def onStreamDone (s : Screen) : Screen := { s with currentAssistantText := "" }

/-- `on_stream_error`. -/
def onStreamError (s : Screen) (code message : String) : Screen where
  currentAssistantText := ""
  history := s.history ++ [⟨"error-message", .str s!"[{code}] {message}"⟩]

/-- A frame reaches the handler that is meant for it; nothing is posted for a `PongFrame`. -/
def onFrame (s : Screen) : ServerFrame → Screen
  | .chunk delta => s.onStreamChunk delta
  | .done .. => s.onStreamDone
  | .error code message => s.onStreamError code message
  | .pong => s

end Screen

/-- A turn as the panel shows it: the question, the answer, and the errors after it. -/
def turnBubbles (content : String) (fs : List ServerFrame) : List Bubble :=
  ⟨"user-message", .str content⟩ :: ⟨"assistant-message", .str (hear "" fs)⟩ ::
    fs.filterMap ServerFrame.errorBubble?

namespace Screen

/-- The last answer is the one of the last turn. -/
theorem updateLast_append (text : String) (before : List Bubble) (question answer : Json)
    {errors : List Bubble} (herrors : ∀ b ∈ errors, b.cssClass ≠ "assistant-message") :
    updateLast text
        (before ++ ⟨"user-message", question⟩ :: ⟨"assistant-message", answer⟩ :: errors) =
      before ++ ⟨"user-message", question⟩ :: ⟨"assistant-message", .str text⟩ :: errors := by
  have hnone : errors.any (·.cssClass == "assistant-message") = false := by
    rw [List.any_eq_false]
    intro b hb heq
    exact herrors b hb (eq_of_beq heq)
  induction before with
  | nil => simp [updateLast, hnone]
  | cons b before ih =>
      have hsome : (before ++ ⟨"user-message", question⟩ :: ⟨"assistant-message", answer⟩ ::
          errors).any (·.cssClass == "assistant-message") = true := by simp
      rw [List.cons_append, updateLast, if_pos hsome, ih]
      rfl

theorem errorBubbles_ne (fs : List ServerFrame) :
    ∀ b ∈ fs.filterMap ServerFrame.errorBubble?, b.cssClass ≠ "assistant-message" := by
  intro b hb
  obtain ⟨f, -, hf⟩ := List.mem_filterMap.mp hb
  cases f with
  | error code message =>
      cases hf
      simp
  | _ => cases hf

variable {s : Screen} {before : List Bubble} {content : String} {fs : List ServerFrame}

/-- **A frame** of a turn is shown with that turn when it is the last one on the screen. -/
theorem history_onFrame (hhistory : s.history = before ++ turnBubbles content fs)
    (htext : s.currentAssistantText = hear "" fs) {f : ServerFrame} (hf : f ≠ .pong) :
    (s.onFrame f).history = before ++ turnBubbles content (fs ++ [f]) ∧
      (¬ f.IsTerminal → (s.onFrame f).currentAssistantText = hear "" (fs ++ [f])) := by
  rw [turnBubbles, List.filterMap_append, hear_concat]
  cases f with
  | chunk delta =>
      refine ⟨?_, fun _ ↦ congrArg (· ++ delta) htext⟩
      show updateLast (s.currentAssistantText ++ delta) s.history = _
      rw [hhistory, htext, turnBubbles, updateLast_append _ _ _ _ (errorBubbles_ne fs)]
      exact congrArg (before ++ _ :: _ :: ·) (List.append_nil _).symm
  | done provider model tokensUsage stopReason elapsedS tokensCost =>
      refine ⟨?_, fun h ↦ absurd trivial h⟩
      show s.history = before ++ _ :: ⟨_, .str (hear "" fs ++ "")⟩ :: (_ ++ [])
      rw [hhistory, String.append_empty, List.append_nil]
      rfl
  | error code message =>
      refine ⟨?_, fun h ↦ absurd trivial h⟩
      show s.history ++ _ = before ++ _ :: ⟨_, .str (hear "" fs ++ "")⟩ :: _
      rw [hhistory, String.append_empty, turnBubbles, List.append_assoc]
      rfl
  | pong => exact absurd rfl hf

end Screen

/-- The turns of a dialogue, with the frames that were heard of each. -/
def dialogue (questions : List String) (heard : ℕ → List ServerFrame) : List Bubble :=
  questions.zipIdx.flatMap fun q ↦ turnBubbles q.1 (heard q.2)

theorem dialogue_concat (questions : List String) (content : String)
    (heard : ℕ → List ServerFrame) : dialogue (questions ++ [content]) heard =
      dialogue questions heard ++ turnBubbles content (heard questions.length) := by
  rw [dialogue, List.zipIdx_append, List.flatMap_append, Nat.zero_add]
  exact congrArg (dialogue questions heard ++ ·) (List.flatMap_singleton ..)

theorem dialogue_congr {questions : List String} {heard heard' : ℕ → List ServerFrame}
    (h : ∀ n < questions.length, heard n = heard' n) :
    dialogue questions heard = dialogue questions heard' := by
  refine List.flatMap_congr fun q hq ↦ ?_
  obtain ⟨n, hn, heq⟩ := List.mem_iff_getElem.mp hq
  rw [List.getElem_zipIdx] at heq
  rw [List.length_zipIdx] at hn
  rw [← heq, Nat.zero_add, h n hn]

/-- A chat, and what its client shows. -/
structure Viewer where
  chat : Chat
  screen : Screen

namespace Viewer

open Chat (turnFrames)

/-- A client whose connection has just been accepted, with what it shows by then. -/
def start (t : FileTree) (s : Session) (before : List Bubble) : Viewer where
  chat := .start t s
  screen := { history := before }

/-- The client shows its message when it sends it, and every frame that reaches it. -/
def shown (v : Viewer) : Chat.Input → Screen
  | .sends (.sendMessage content) => v.screen.sendMessage content
  | .receives =>
      match v.chat.toClient with
      | [] => v.screen
      | frame :: _ => v.screen.onFrame frame
  | _ => v.screen

/-- What the panel shows is what was heard of the turns, and what was not yet heard of the
last of them is on its way. -/
structure Displays (before : List Bubble) (v : Viewer) (o : List Chat.Obs)
    (heard : ℕ → List ServerFrame) : Prop where
  history : v.screen.history = before ++ dialogue v.chat.questions heard
  told : ∀ n, turnFrames n o =
    heard n ++ if n + 1 = v.chat.questions.length then v.chat.pending else []
  listening : v.chat.pending ≠ [] → v.chat.streaming = true
  ends : v.chat.pending.Pairwise fun f _ ↦ ¬ f.IsTerminal
  text : v.chat.streaming = true → ∃ n, v.chat.questions.length = n + 1 ∧
    v.screen.currentAssistantText = hear "" (heard n)
  fresh : ∀ n, v.chat.contents.length ≤ n → turnFrames n o = []

section

variable {before : List Bubble} {v : Viewer} {c' : Chat} {o₁ o : List Chat.Obs}
  {i : Chat.Input} {heard : ℕ → List ServerFrame}

theorem Displays.quiet (h : Displays before v o₁ heard) {screen : Screen}
    (hscreen : screen = v.screen) (hquiet : v.chat.Quiet c' o) :
    Displays before ⟨c', screen⟩ (o₁ ++ o) heard := by
  subst hscreen
  have hquestions : c'.questions = v.chat.questions := by
    rw [Chat.questions, Chat.questions, hquiet.contents, hquiet.waiting]
  have hsilent : ∀ n, turnFrames n (o₁ ++ o) = turnFrames n o₁ := by
    intro n
    rw [Chat.turnFrames_append, hquiet.silent, List.append_nil]
  refine ⟨?_, ?_, ?_, ?_, ?_, ?_⟩
  · show v.screen.history = before ++ dialogue c'.questions heard
    rw [hquestions]
    exact h.history
  · intro n
    show turnFrames n (o₁ ++ o) =
      heard n ++ if n + 1 = c'.questions.length then c'.pending else []
    rw [hsilent, hquestions, hquiet.pending]
    exact h.told n
  · show c'.pending ≠ [] → c'.streaming = true
    rw [hquiet.pending, hquiet.streaming]
    exact h.listening
  · show c'.pending.Pairwise _
    rw [hquiet.pending]
    exact h.ends
  · show c'.streaming = true → ∃ n, c'.questions.length = n + 1 ∧ _
    rw [hquiet.streaming, hquestions]
    exact h.text
  · show ∀ n, c'.contents.length ≤ n → _
    intro n hn
    rw [hsilent]
    rw [hquiet.contents] at hn
    exact h.fresh n hn

/-- A message is shown with an empty answer, and there is nothing on its way that could be
taken for one. -/
theorem Displays.asks (h : Displays before v o₁ heard) (hbalanced : v.chat.Balanced)
    {content : String} (idle : v.chat.streaming = false) :
    Displays before ⟨{ v.chat with
      streaming := true
      toServer := v.chat.toServer ++ [.sendMessage content] }, v.screen.sendMessage content⟩
        o₁ heard := by
  have hdebt : asked v.chat.toServer + Chat.owedBy v.chat.server + terminals v.chat.toClient ≤
      v.chat.streaming.toNat := hbalanced
  have hasked : asked v.chat.toServer = 0 := by
    rw [idle, Bool.toNat_false] at hdebt
    omega
  have hpending : v.chat.pending = [] := by
    by_contra hne
    cases (h.listening hne).symm.trans idle
  have hquestions : v.chat.questions = v.chat.contents := by
    rw [Chat.questions, List.eq_nil_of_length_eq_zero
      ((Chat.length_waiting v.chat).trans hasked), List.append_nil]
  have hnone : heard v.chat.contents.length = [] := by
    have heq := h.told v.chat.contents.length
    rw [h.fresh _ le_rfl, hpending, ite_self, List.append_nil] at heq
    exact heq.symm
  have hmore : ({ v.chat with
      streaming := true
      toServer := v.chat.toServer ++ [.sendMessage content] } : Chat).questions =
        v.chat.questions ++ [content] := by
    rw [Chat.questions, Chat.questions, List.append_assoc]
    exact congrArg (v.chat.contents ++ ·) (List.filterMap_append ..)
  refine ⟨?_, ?_, fun _ ↦ rfl, h.ends, fun _ ↦ ⟨v.chat.questions.length, ?_, ?_⟩, h.fresh⟩
  · show v.screen.history ++ _ = before ++ dialogue _ heard
    rw [hmore, dialogue_concat, hquestions, hnone, h.history, hquestions, List.append_assoc]
    rfl
  · intro n
    show turnFrames n o₁ = heard n ++ if n + 1 = _ then v.chat.pending else []
    rw [hpending, ite_self, List.append_nil, h.told n, hpending, ite_self, List.append_nil]
  · show (Chat.questions _).length = _
    rw [hmore, List.length_append]
    rfl
  · show "" = hear "" (heard v.chat.questions.length)
    rw [hquestions, hnone]
    rfl

/-- A frame that reaches the client is shown with the last turn. -/
theorem Displays.hears (h : Displays before v o₁ heard) {frame : ServerFrame}
    {rest : List ServerFrame} (hturn : frame ≠ .pong)
    (hqueue : v.chat.toClient = frame :: rest) :
    ∃ heard', Displays before ⟨{ v.chat with
      streaming := if frame.IsTerminal then false else v.chat.streaming
      toClient := rest }, v.screen.onFrame frame⟩ o₁ heard' := by
  have hpending : v.chat.pending = frame :: ({ v.chat with toClient := rest } : Chat).pending := by
    rw [Chat.pending, hqueue]
    exact List.filter_cons_of_pos (decide_eq_true hturn)
  have hstreaming := h.listening (hpending ▸ List.cons_ne_nil _ _)
  have hends := List.pairwise_cons.mp (hpending ▸ h.ends)
  obtain ⟨n, hlength, htext⟩ := h.text hstreaming
  obtain ⟨questions, content, hquestions⟩ : ∃ questions content,
      v.chat.questions = questions ++ [content] := by
    rcases List.eq_nil_or_concat' v.chat.questions with hnil | hconcat
    · rw [hnil] at hlength
      cases hlength
    · exact hconcat
  obtain rfl : questions.length = n := by
    rw [hquestions, List.length_append, List.length_singleton] at hlength
    omega
  have hhistory := h.history
  rw [hquestions, dialogue_concat, ← List.append_assoc] at hhistory
  obtain ⟨hshown, hmore⟩ := Screen.history_onFrame hhistory htext hturn
  refine ⟨Function.update heard questions.length (heard questions.length ++ [frame]),
    ?_, ?_, ?_, hends.2, ?_, h.fresh⟩
  · show (v.screen.onFrame frame).history = before ++ dialogue v.chat.questions _
    rw [hshown, hquestions, dialogue_concat, Function.update_self, ← List.append_assoc]
    congr 2
    refine dialogue_congr fun m hm ↦ ?_
    exact (Function.update_of_ne hm.ne _ _).symm
  · intro m
    show turnFrames m o₁ = _ ++ if m + 1 = v.chat.questions.length then _ else []
    rw [h.told m, hpending]
    by_cases heq : m = questions.length
    · subst heq
      rw [if_pos hlength.symm, if_pos hlength.symm, Function.update_self, List.append_assoc]
      rfl
    · rw [if_neg (by omega), if_neg (by omega), Function.update_of_ne heq]
  · -- nothing of a turn comes after its end
    intro hne
    show (if frame.IsTerminal then false else v.chat.streaming) = true
    obtain ⟨g, hg⟩ := List.exists_mem_of_ne_nil _ hne
    rw [if_neg (hends.1 g hg)]
    exact hstreaming
  · intro hgoes
    have hgoes : (if frame.IsTerminal then false else v.chat.streaming) = true := hgoes
    split at hgoes
    · cases hgoes
    · rename_i hterminal
      refine ⟨questions.length, hlength, ?_⟩
      rw [Function.update_self]
      exact hmore hterminal

/-- A task is made for a message that is on the screen by then. -/
theorem Displays.begins (h : Displays before v o₁ heard) {content : String}
    {rest : List ClientFrame} (hqueue : v.chat.toServer = .sendMessage content :: rest) :
    Displays before ⟨v.chat.begun content rest, v.screen⟩
      (o₁ ++ [.took (.sendMessage content)]) heard := by
  have hsilent : ∀ n, turnFrames n (o₁ ++ [.took (.sendMessage content)]) =
      turnFrames n o₁ := by
    intro n
    rw [Chat.turnFrames_append]
    exact List.append_nil _
  have hcontents : (v.chat.begun content rest).contents = v.chat.contents ++ [content] :=
    Chat.contents_begun ..
  have hquestions : (v.chat.begun content rest).questions = v.chat.questions := by
    rw [Chat.questions, Chat.questions, hcontents, List.append_assoc]
    refine congrArg (v.chat.contents ++ ·) ?_
    rw [Chat.waiting, Chat.waiting, hqueue]
    rfl
  refine ⟨?_, ?_, h.listening, h.ends, ?_, ?_⟩
  · show v.screen.history = before ++ dialogue (v.chat.begun content rest).questions heard
    rw [hquestions]
    exact h.history
  · intro n
    show turnFrames n _ =
      heard n ++ if n + 1 = (v.chat.begun content rest).questions.length then v.chat.pending else []
    rw [hsilent, hquestions]
    exact h.told n
  · show v.chat.streaming = true → ∃ n, (v.chat.begun content rest).questions.length = n + 1 ∧ _
    rw [hquestions]
    exact h.text
  · intro n hn
    have hn : (v.chat.begun content rest).contents.length ≤ n := hn
    rw [hcontents, List.length_append] at hn
    rw [hsilent]
    exact h.fresh n (by omega)

/-- What holds of a client and its session while no message is taken too early. -/
structure Faithful (records : List MessageRecord) (before : List Bubble) (v : Viewer)
    (o : List Chat.Obs) : Prop where
  balanced : v.chat.Balanced
  last : v.chat.LastOwes
  contents : v.chat.contents = Chat.messages o
  records : ∃ recorded, v.chat.Records records o recorded
  displays : ∃ heard, Displays before v o heard

theorem faithful_start (t : FileTree) (s : Session) (before : List Bubble) :
    Faithful s.messages before (start t s before) [] where
  balanced := le_rfl
  last := nofun
  contents := rfl
  records := by
    refine ⟨fun _ ↦ [], (List.append_nil _).symm, fun n phase content hn ↦ ?_, fun n _ ↦ ⟨rfl, rfl⟩⟩
    cases hn
  displays := by
    refine ⟨fun _ ↦ [], (List.append_nil _).symm, fun n ↦ ?_, fun hne ↦ absurd rfl hne, .nil,
      nofun, fun n _ ↦ rfl⟩
    split <;> rfl

/-- A client that is not streaming has heard everything. -/
theorem Faithful.idle {records : List MessageRecord}
    (h : Faithful records before v o) (hidle : v.chat.streaming = false) :
    v.screen.history = before ++ dialogue (Chat.messages o) fun n ↦ turnFrames n o := by
  obtain ⟨heard, hdisplays⟩ := h.displays
  have hdebt : asked v.chat.toServer + Chat.owedBy v.chat.server + terminals v.chat.toClient ≤
      v.chat.streaming.toNat := h.balanced
  rw [hidle, Bool.toNat_false] at hdebt
  have hquestions : v.chat.questions = Chat.messages o := by
    rw [Chat.questions, h.contents, List.eq_nil_of_length_eq_zero
      ((Chat.length_waiting v.chat).trans (by omega)), List.append_nil]
  have hpending : v.chat.pending = [] := by
    by_contra hne
    cases (hdisplays.listening hne).symm.trans hidle
  rw [hdisplays.history, hquestions]
  refine congrArg (before ++ ·) (dialogue_congr fun n _ ↦ ?_)
  rw [hdisplays.told n, hpending, ite_self, List.append_nil]

/-- Of the records of a turn each is shown where its message stands. -/
theorem exists_shown {content : String} {fs : List ServerFrame} {rs : List MessageRecord}
    (h : rs.map (·.message) <+:
      [Message.of "user" content, Message.of "assistant" (hear "" fs)]) :
    ∃ shown, shown <+: turnBubbles content fs ∧ List.Forall₂ MessageRecord.ShownAs rs shown := by
  have hshown : ∀ {r : MessageRecord} {role text : String}, r.message = Message.of role text →
      r.ShownAs ⟨if role = "user" then "user-message" else "assistant-message", .str text⟩ := by
    intro r role text hr
    exact ⟨role, text, by rw [hr]; simp, by rw [hr]; simp, rfl⟩
  cases rs with
  | nil => exact ⟨[], List.nil_prefix, .nil⟩
  | cons question rs =>
      rw [List.map_cons, List.cons_prefix_cons] at h
      obtain ⟨hquestion, h⟩ := h
      cases rs with
      | nil => exact ⟨_, List.prefix_append [_] _, .cons (hshown hquestion) .nil⟩
      | cons answer rs =>
          rw [List.map_cons, List.cons_prefix_cons] at h
          obtain ⟨hanswer, h⟩ := h
          rw [List.map_eq_nil_iff.mp (List.prefix_nil.mp h)]
          exact ⟨_, List.prefix_append [_, _] _,
            .cons (hshown hquestion) (.cons (hshown hanswer) .nil)⟩

end

section

variable [UnicodeData] [SessionCodec]

/-- One step. -/
def step (a : SessionFileAdapter) (v : Viewer) (i : Chat.Input) :
    Option (Viewer × List Chat.Obs) :=
  (Chat.step a v.chat i).map fun (chat, o) ↦ ({ chat, screen := v.shown i }, o)

/-- The machine of a client with its panel, and the server. -/
def machine (a : SessionFileAdapter) : Mealy Viewer Chat.Input Chat.Obs := ⟨step a⟩

/-- No message is taken while a task is suspended in sending a terminal frame, and no task
sends two of them. -/
def AfterTheEnd (v : Viewer) (i : Chat.Input) : Prop := v.chat.AfterTheEnd i

variable {a : SessionFileAdapter} {before : List Bubble} {v v' : Viewer} {o₁ : List Chat.Obs}
  {heard : ℕ → List ServerFrame}

/-- A task sends a frame: it is the one the client waits for, and comes last. -/
theorem Displays.turn
    (hdump : ∀ (m : OutputModel) (e : PyExc), ConfigCodec.dumpModel m = .error e → ¬ e.Handled)
    (h : Displays before v o₁ heard) (hbalanced : v.chat.Balanced) (hlast : v.chat.LastOwes)
    {n : ℕ} {i : StreamInput} {faults : List (Option FileTree.Fault)} {task task' : StreamTask}
    {tree : FileTree} {session : Session} {o : List StreamObs}
    (htask : v.chat.server.tasks[n]? = some task)
    (hstep : task.step a v.chat.server.tree v.chat.server.sc.session faults i =
      some ((tree, session, task'), o)) (honce : task.phase.EndsOnce i) :
    Displays before ⟨v.chat.turned n tree session task' (frames o), v.screen⟩
      (o₁ ++ (o.map (WsHandler.Obs.stream n)).map .server) heard := by
  obtain ⟨hsingle, howed⟩ := frames_step hdump hstep honce
  have hcontents : (v.chat.turned n tree session task' (frames o)).contents = v.chat.contents :=
    Chat.contents_turned htask (content_step hstep)
  have hquestions : (v.chat.turned n tree session task' (frames o)).questions =
      v.chat.questions := congrArg (· ++ v.chat.waiting) hcontents
  have hpending := Chat.pending_turned v.chat n tree session task' hsingle
  have hkept : (v.chat.turned n tree session task' (frames o)).streaming = v.chat.streaming := rfl
  generalize v.chat.turned n tree session task' (frames o) = c'
    at hcontents hquestions hpending hkept
  -- a frame is sent by the last task, while the client waits and nothing else has ended
  have hsends : frames o ≠ [] → n + 1 = v.chat.questions.length ∧ v.chat.streaming = true ∧
      ∀ f ∈ v.chat.pending, ¬ f.IsTerminal := by
    intro hne
    have hn := Chat.phases_of_task htask
    have hpos : 0 < task.phase.owed := (howed hne).symm ▸ one_pos
    obtain ⟨hasked, hterminals, hstreaming⟩ := hbalanced.owing hn hpos
    refine ⟨?_, hstreaming, Chat.mem_pending_terminal hterminals⟩
    rw [Chat.questions, List.length_append, Chat.length_waiting, hasked, Chat.length_contents,
      ← Chat.length_phases]
    exact hlast n _ hn hpos
  refine ⟨?_, ?_, ?_, ?_, ?_, ?_⟩
  · show v.screen.history = before ++ dialogue c'.questions heard
    rw [hquestions]
    exact h.history
  · intro m
    show turnFrames m _ = heard m ++ if m + 1 = c'.questions.length then c'.pending else []
    rw [hquestions, hpending, Chat.turnFrames_append, h.told m]
    by_cases heq : n = m
    · subst heq
      rw [Chat.turnFrames_stream_self, List.append_assoc]
      by_cases hnil : frames o = []
      · rw [hnil, List.append_nil, List.append_nil]
      · rw [if_pos (hsends hnil).1, if_pos (hsends hnil).1]
    · rw [Chat.turnFrames_stream_of_ne heq, List.append_nil]
      by_cases hnil : frames o = []
      · rw [hnil, List.append_nil]
      · have hlength := (hsends hnil).1
        rw [if_neg (by omega), if_neg (by omega)]
  · show c'.pending ≠ [] → c'.streaming = true
    rw [hpending, hkept]
    intro hne
    by_cases hnil : frames o = []
    · rw [hnil, List.append_nil] at hne
      exact h.listening hne
    · exact (hsends hnil).2.1
  · show c'.pending.Pairwise _
    rw [hpending, List.pairwise_append]
    refine ⟨h.ends, ?_, fun f hf g hg ↦ (hsends (List.ne_nil_of_mem hg)).2.2 f hf⟩
    rcases hsingle with hnil | ⟨f, -, hone⟩
    · rw [hnil]
      exact .nil
    · rw [hone]
      exact List.pairwise_singleton _ f
  · show c'.streaming = true → ∃ m, c'.questions.length = m + 1 ∧ _
    rw [hquestions, hkept]
    exact h.text
  · intro m hm
    have hlt := (List.getElem?_eq_some_iff.mp htask).1
    rw [show Viewer.chat ⟨c', v.screen⟩ = c' from rfl, hcontents] at hm
    have hne : n ≠ m := by
      rw [Chat.length_contents] at hm
      omega
    rw [Chat.turnFrames_append, Chat.turnFrames_stream_of_ne hne, List.append_nil]
    exact h.fresh m hm

/-- **Each step** shows what is heard of the turn it belongs to. -/
theorem Displays.move
    (hdump : ∀ (m : OutputModel) (e : PyExc), ConfigCodec.dumpModel m = .error e → ¬ e.Handled)
    (h : Displays before v o₁ heard) {i : Chat.Input} {c' : Chat} {o : List Chat.Obs}
    (hm : Chat.Move a v.chat i c' o) (hbalanced : v.chat.Balanced) (hlast : v.chat.LastOwes)
    (hafter : v.AfterTheEnd i) : ∃ heard', Displays before ⟨c', v.shown i⟩ (o₁ ++ o) heard' := by
  cases hm with
  | quiet i c' o hquiet hsends hreceives =>
      refine ⟨heard, h.quiet ?_ hquiet⟩
      cases i with
      | sends frame =>
          cases frame with
          | sendMessage content => exact absurd rfl (hsends content)
          | cancel | ping => rfl
      | receives =>
          obtain ⟨rest, hqueue⟩ := hreceives rfl
          rw [shown, hqueue]
          rfl
      | takes | server i => rfl
  | asks content idle =>
      rw [List.append_nil]
      exact ⟨heard, h.asks hbalanced idle⟩
  | hears frame rest hturn hqueue =>
      have hshown : v.shown .receives = v.screen.onFrame frame := by
        rw [shown, hqueue]
      rw [List.append_nil, hshown]
      exact h.hears hturn hqueue
  | begins content rest hqueue => exact ⟨heard, h.begins hqueue⟩
  | turn n i faults task task' tree session o htask hstep =>
      exact ⟨heard, h.turn hdump hbalanced hlast htask hstep (hafter task htask)⟩

theorem Faithful.step
    (hdump : ∀ (m : OutputModel) (e : PyExc), ConfigCodec.dumpModel m = .error e → ¬ e.Handled)
    {records : List MessageRecord} (h : Faithful records before v o₁) {i : Chat.Input}
    {o : List Chat.Obs} (hs : step a v i = some (v', o)) (hafter : v.AfterTheEnd i) :
    Faithful records before v' (o₁ ++ o) := by
  obtain ⟨⟨c', o'⟩, hstep, heq⟩ := Option.map_eq_some_iff.mp hs
  cases heq
  obtain ⟨hbalanced, hrefuses, hcontents⟩ := Chat.balanced_step hdump hstep h.balanced hafter
  have hmove := Chat.Move.of_step hstep h.balanced hafter
  obtain ⟨recorded, hrecords⟩ := h.records
  obtain ⟨heard, hdisplays⟩ := h.displays
  refine ⟨hbalanced, h.last.move hdump hmove h.balanced hafter, ?_, hrecords.move hmove h.last,
    hdisplays.move hdump hmove h.balanced h.last hafter⟩
  rw [Chat.messages_append, ← h.contents]
  exact hcontents

theorem faithful_of_run
    (hdump : ∀ (m : OutputModel) (e : PyExc), ConfigCodec.dumpModel m = .error e → ¬ e.Handled)
    {t : FileTree} {s : Session} {is : List Chat.Input} {o : List Chat.Obs}
    (h : (machine a).run (.start t s before) is = some (v, o))
    (hafter : (machine a).StepsMeet AfterTheEnd (.start t s before) is) :
    Faithful s.messages before v o := by
  refine Mealy.run_induction_of_steps (P := fun _ v o ↦ Faithful s.messages before v o)
    (Q := AfterTheEnd) (faithful_start t s before) ?_ h hafter
  intro _ v o i v' o' hv hi hs
  exact hv.step hdump hs hi

/-- **What is shown is what was told.**  Whatever the order in which frames are sent, under way
and received, a client that is not streaming shows, for every message the loop took, the
message, the text of exactly the chunks its turn sent, and the error it sent if it did. -/
theorem displays_of_run
    (hdump : ∀ (m : OutputModel) (e : PyExc), ConfigCodec.dumpModel m = .error e → ¬ e.Handled)
    {t : FileTree} {s : Session} {is : List Chat.Input} {o : List Chat.Obs}
    (h : (machine a).run (.start t s before) is = some (v, o))
    (hafter : (machine a).StepsMeet AfterTheEnd (.start t s before) is)
    (hidle : v.chat.streaming = false) :
    v.screen.history = before ++ dialogue (Chat.messages o) fun n ↦ turnFrames n o :=
  (faithful_of_run hdump h hafter).idle hidle

/-- **What is recorded is what is shown.**  A client that is not streaming shows every record
the session has made since.  They come turn by turn, one for every message the loop took: of a
turn the question is recorded, then the text it told, or less; and this is shown in the first
bubbles of that turn. -/
theorem records_of_run
    (hdump : ∀ (m : OutputModel) (e : PyExc), ConfigCodec.dumpModel m = .error e → ¬ e.Handled)
    {t : FileTree} {s : Session} {is : List Chat.Input} {o : List Chat.Obs}
    (h : (machine a).run (.start t s before) is = some (v, o))
    (hafter : (machine a).StepsMeet AfterTheEnd (.start t s before) is)
    (hidle : v.chat.streaming = false) :
    ∃ recorded : List (List MessageRecord),
      v.chat.server.sc.session.messages = s.messages ++ recorded.flatten ∧
      v.screen.history = before ++
        (Chat.messages o).zipIdx.flatMap (fun q ↦ turnBubbles q.1 (turnFrames q.2 o)) ∧
      List.Forall₂ (fun records q ↦
        records.map (·.message) <+:
            [Message.of "user" q.1, Message.of "assistant" (hear "" (turnFrames q.2 o))] ∧
          ∃ shown, shown <+: turnBubbles q.1 (turnFrames q.2 o) ∧
            List.Forall₂ MessageRecord.ShownAs records shown)
        recorded (Chat.messages o).zipIdx := by
  have hfaithful := faithful_of_run hdump h hafter
  obtain ⟨recorded, hrecords⟩ := hfaithful.records
  have hlength : v.chat.phases.length = (Chat.messages o).length := by
    rw [Chat.length_phases, ← Chat.length_contents, hfaithful.contents]
  refine ⟨(List.range (Chat.messages o).length).map recorded, ?_, hfaithful.idle hidle, ?_⟩
  · rw [hrecords.history, hlength, List.flatMap_def]
  · refine List.forall₂_iff_get.mpr ⟨?_, fun n hn hn' ↦ ?_⟩
    · rw [List.length_map, List.length_range, List.length_zipIdx]
    · rw [List.length_map, List.length_range] at hn
      have hphase := List.getElem?_eq_getElem (hlength ▸ hn)
      have hcontent : v.chat.contents[n]? = some ((Chat.messages o)[n]) := by
        rw [hfaithful.contents]
        exact List.getElem?_eq_getElem hn
      have hprefix := (hrecords.turns n _ _ hphase hcontent).isPrefix
      have hshown := And.intro hprefix (exists_shown hprefix)
      simpa using hshown

end

/-! ## A run to evaluate -/

/-- The machine over the sample store. -/
def sampleMachine : Mealy Viewer Chat.Input Chat.Obs :=
  @machine .asciiOnly App.sampleCodec .sampleStore

/-- A client of the sample session, with an empty panel. -/
def sampleStart : Viewer := .start App.sampleTree App.sampleSession []

/-- A turn that is answered in two chunks and saved, and one whose LLM raises after its first;
the client receives the frames as they come. -/
def sampleDialogue : List Chat.Input :=
  [.sends (.sendMessage "hi"), .takes, .server (.stream 0 (.runs (.ofNat 1)) []),
    .server (.stream 0 (.resumes (.event (.textChunk "y"))) []), .receives,
    .server (.stream 0 .sent []), .server (.stream 0 (.resumes (.event (.textChunk "o"))) []),
    .server (.stream 0 .sent []),
    .server (.stream 0 (.resumes (.event (.completionDone ⟨"p", "m", ⟨1, 2⟩, .stop, 0⟩))) []),
    .server (.stream 0 (.resumes (.mainEnds (.ofNat 2) 0)) []), .receives, .receives,
    .server (.stream 0 .sent []),
    .sends (.sendMessage "more"), .takes, .server (.stream 1 (.runs (.ofNat 3)) []),
    .server (.stream 1 (.resumes (.event (.textChunk "ye"))) []),
    .server (.stream 1 .sent []),
    .server (.stream 1 (.resumes (.raises (.anyLlmError "overloaded"))) []), .receives, .receives]

instance : DecidablePred StreamPhase.SendsTerminal
  | .sendingDone _ _ | .sendingError => isTrue trivial
  | .created | .awaiting _ | .sendingChunk _ | .finished _ => isFalse id

instance : DecidablePred PyExc.Handled
  | .authenticationError _ | .anyLlmError _ | .cancelledError => isTrue trivial
  | .valueError _ | .typeError _ | .keyError _ | .indexError _ | .attributeError _
  | .fileNotFoundError _ | .fileExistsError _ | .permissionError _ | .osError _ | .systemExit _
  | .other _ _ => isFalse id

instance (phase : StreamPhase) (i : StreamInput) : Decidable (phase.EndsOnce i) :=
  match phase, i with
  | .sendingDone _ rest, .sent => inferInstanceAs (Decidable (rest = []))
  | .sendingDone _ _, .sendFails e => inferInstanceAs (Decidable (e.Handled → e = .cancelledError))
  | .sendingDone _ _, .runs _ | .sendingDone _ _, .resumes _ | .sendingDone _ _, .cancelled
  | .created, _ | .awaiting _, _ | .sendingChunk _, _ | .sendingError, _ | .finished _, _ =>
      isTrue trivial

instance (v : Viewer) (i : Chat.Input) : Decidable (v.AfterTheEnd i) :=
  match i with
  | .takes =>
      decidable_of_iff (∀ frame ∈ v.chat.toServer.head?, frame.IsMessage →
        ∀ task ∈ v.chat.server.tasks, ¬ task.phase.SendsTerminal) <| by
        constructor
        · intro h content rest hqueue
          exact h _ (congrArg List.head? hqueue) trivial
        · intro h frame hframe hmessage
          obtain ⟨rest, hqueue⟩ := List.head?_eq_some_iff.mp hframe
          cases frame with
          | sendMessage content => exact h content rest hqueue
          | cancel | ping => cases hmessage
  | .server (.stream n i _) =>
      inferInstanceAs (Decidable (∀ task ∈ v.chat.server.tasks[n]?, task.phase.EndsOnce i))
  | .sends _ | .receives | .server .connects | .server (.handler _ _) => isTrue trivial

theorem afterTheEnd_sampleDialogue :
    sampleMachine.StepsMeet AfterTheEnd sampleStart sampleDialogue :=
  .of_checks rfl

/-- The second answer stands as far as it came, with the error behind it. -/
theorem displays_sampleDialogue : ∃ v o,
    sampleMachine.run sampleStart sampleDialogue = some (v, o) ∧
    v.screen.history = turnBubbles "hi" (turnFrames 0 o) ++
      [⟨"user-message", .str "more"⟩, ⟨"assistant-message", .str "ye"⟩,
        ⟨"error-message", .str "[api_error] overloaded"⟩] := by
  obtain ⟨⟨v, o⟩, hrun, heval⟩ := Option.map_eq_some_iff.mp
    (show (sampleMachine.run sampleStart sampleDialogue).map (fun r ↦
      (r.1.chat.streaming, Chat.messages r.2, turnFrames 1 r.2)) =
        some (false, ["hi", "more"], [.chunk "ye", .error "api_error" "overloaded"]) from rfl)
  obtain ⟨hidle, hrest⟩ := Prod.mk.inj heval
  obtain ⟨hmessages, hframes⟩ := Prod.mk.inj hrest
  have hmessages : Chat.messages o = ["hi", "more"] := hmessages
  have hframes : turnFrames 1 o = [.chunk "ye", .error "api_error" "overloaded"] := hframes
  have hhistory := @displays_of_run .asciiOnly App.sampleCodec .sampleStore [] v nofun
    App.sampleTree App.sampleSession sampleDialogue o hrun afterTheEnd_sampleDialogue hidle
  refine ⟨v, o, hrun, ?_⟩
  rw [hhistory, hmessages]
  show turnBubbles "hi" (turnFrames 0 o) ++ (turnBubbles "more" (turnFrames 1 o) ++ []) = _
  rw [hframes]
  rfl

/-- Of the first turn both records are shown, of the second the question. -/
theorem records_sampleDialogue : ∃ v o,
    sampleMachine.run sampleStart sampleDialogue = some (v, o) ∧
    v.chat.server.sc.session.messages.map (·.message) =
      [Message.of "user" "hi", Message.of "assistant" "yo", Message.of "user" "more"] ∧
    ∃ first second : List MessageRecord,
      v.chat.server.sc.session.messages = first ++ second ∧
      first.map (·.message) <+: [Message.of "user" "hi", Message.of "assistant" "yo"] ∧
      second.map (·.message) <+: [Message.of "user" "more", Message.of "assistant" "ye"] ∧
      ∃ shown, shown <+: turnBubbles "more" (turnFrames 1 o) ∧
        List.Forall₂ MessageRecord.ShownAs second shown := by
  obtain ⟨⟨v, o⟩, hrun, heval⟩ := Option.map_eq_some_iff.mp
    (show (sampleMachine.run sampleStart sampleDialogue).map (fun r ↦
      (r.1.chat.streaming, r.1.chat.server.sc.session.messages.map (·.message), Chat.messages r.2,
        hear "" (turnFrames 0 r.2), hear "" (turnFrames 1 r.2))) =
        some (false, [Message.of "user" "hi", Message.of "assistant" "yo",
          Message.of "user" "more"], ["hi", "more"], "yo", "ye") from rfl)
  simp only [Prod.mk.injEq] at heval
  obtain ⟨hidle, hrecorded, hmessages, htold, htold'⟩ := heval
  obtain ⟨recorded, hhistory, -, hturns⟩ := @records_of_run .asciiOnly App.sampleCodec .sampleStore
    [] v nofun App.sampleTree App.sampleSession sampleDialogue o hrun afterTheEnd_sampleDialogue
    hidle
  rw [hmessages] at hturns
  cases hturns with
  | @cons first _ _ _ hfirst hrest =>
      cases hrest with
      | @cons second _ _ _ hsecond hnil =>
          cases hnil
          refine ⟨v, o, hrun, hrecorded, first, second, hhistory.trans ?_, ?_, ?_, hsecond.2⟩
          · exact congrArg (first ++ ·) (List.append_nil second)
          · rw [← htold]
            exact hfirst.1
          · rw [← htold']
            exact hsecond.1

end Viewer
