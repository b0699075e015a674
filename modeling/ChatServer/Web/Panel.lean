import ChatServer.Web.ClientSocket
import ChatServer.Web.Display

/-!
# Whose messages the app shows

`#message-history` of `ChatApp` while sessions are selected, made and deleted and the workers
of several sessions post their messages: what the handlers of `ClientSocket` mount in it.

There is one panel for all sessions, and one text an answer is put together in.  Every handler
of a posted message compares its session with the active one, and `_select_session` empties the
panel; but it has changed `active_session_id` by then, and returns before it when the history
cannot be loaded.  The panel is that of the active session exactly as long as this does not
happen while it shows another one (`Client.own_iff_loads`).

Beside what it shows a widget has the sessions its text came from, which are not in the source.
-/

/-! ## The panel -/

/-- A child of the panel, with the sessions its text came from. -/
structure Widget where
  bubble : Bubble
  sessions : List String := []

/-- The panel, with the sessions whose chunks are in `_current_assistant_text`. -/
structure Panel where
  history : List Widget := []
  textSessions : List String := []

namespace Panel

/-- `history.mount`. -/
def mount (p : Panel) (cssClass : String) (content : Json) (sessions : List String) : Panel :=
  { p with history := p.history ++ [⟨⟨cssClass, content⟩, sessions⟩] }

/-- `bubbles[-1].update(text)`, for the answers among the widgets. -/
def updateLast (text : String) (sessions : List String) : List Widget → List Widget
  | [] => []
  | w :: ws =>
      if ws.any (·.bubble.cssClass == "assistant-message") then w :: updateLast text sessions ws
      else if w.bubble.cssClass == "assistant-message" then
        ⟨{ w.bubble with content := .str text }, sessions⟩ :: ws
      else w :: ws

/-- The loop of `_select_session`, up to its next suspension. -/
def mountNext (p : Panel) (sessionId : String) : List Bubble → Panel
  | b :: _ => p.mount b.cssClass b.content [sessionId]
  | [] => p

/-- `_send_message`, up to its first suspension. -/
def sendMessage (p : Panel) (s : ChatApp) (value : String) : Panel :=
  if s.streaming then p
  else
    let content := String.ofList (Py.strip Py.isSpace value.toList)
    if content = "" then p
    else if s.ws = none then p
    else { p with textSessions := [] }.mount "user-message" (.str content) s.activeSessionId.toList

/-- The handlers of the posted messages. -/
def onMessage (p : Panel) (s : ChatApp) : AppMessage → Panel
  | .streamChunk sessionId delta =>
      if some sessionId = s.activeSessionId then
        { history := updateLast (s.currentAssistantText ++ delta)
            (p.textSessions ++ [sessionId]) p.history
          textSessions := p.textSessions ++ [sessionId] }
      else p
  | .streamDone sessionId =>
      if some sessionId = s.activeSessionId then { p with textSessions := [] } else p
  | .streamError sessionId code message =>
      if some sessionId = s.activeSessionId then
        { p with textSessions := [] }.mount "error-message" (.str s!"[{code}] {message}")
          [sessionId]
      else p
  | .showSystemMessage text => p.mount "system-message" (.str text) []
  | .wsConnected _ | .wsDisconnected _ => p

/-- What a step of the app does to the panel. -/
def step (p : Panel) (s : ChatApp) (i : ChatApp.Input) : Panel :=
  match s.handler, i with
  | .idle, .select sessionId =>
      if some sessionId = s.activeSessionId then p else { p with textSessions := [] }
  | .idle, .submit value => p.sendMessage s value
  | .idle, .message =>
      match s.posted with
      | [] => p
      | m :: _ => p.onMessage s m
  | .appending _, .resumes => { p with textSessions := [] }
  | .selecting sessionId, .responds (.ok data) =>
      { p with history := [] }.mountNext sessionId (ChatApp.showHistory data).1
  | .mounting sessionId left _, .resumes => p.mountNext sessionId left
  | .mountingQuestion _, .resumes => p.mount "assistant-message" (.str "") s.activeSessionId.toList
  | .removing, .resumes => { p with history := [] }
  | _, _ => p

end Panel

/-- The app with its panel. -/
structure Client where
  app : ChatApp := {}
  panel : Panel := {}

namespace Client

/-- What the app does. -/
inductive Obs where
  | sends (ws : ℕ) (content : String)
  /-- `_send_message` takes a text. -/
  | asks (content : String)
  /-- A posted message is handled. -/
  | handles (m : AppMessage)

/-- What leaves the app. -/
def Obs.ofApp : ChatApp.Obs → Obs
  | .sends ws content => .sends ws content

/-- What a handler begins with. -/
def begins (s : ChatApp) : ChatApp.Input → List Obs
  | .submit value =>
      let content := String.ofList (Py.strip Py.isSpace value.toList)
      if s.streaming = true ∨ content = "" ∨ s.ws = none then [] else [.asks content]
  | .message => s.posted.head?.toList.map .handles
  | _ => []

/-- One step. -/
def step (c : Client) (i : ChatApp.Input) : Option (Client × List Obs) :=
  (c.app.step i).map fun r ↦ (⟨r.1, c.panel.step c.app i⟩,
    begins c.app i ++ r.2.map .ofApp)

@[reducible] def machine : Mealy Client ChatApp.Input Obs := ⟨step⟩

/-- A run of the client is one of the app. -/
theorem exists_run_app {c c' : Client} {is : List ChatApp.Input} {o : List Obs}
    (h : machine.run c is = some (c', o)) :
    ∃ o', ChatApp.machine.run c.app is = some (c'.app, o') := by
  refine Mealy.run_induction (P := fun is c' _ ↦
    ∃ o', ChatApp.machine.run c.app is = some (c'.app, o')) ⟨[], rfl⟩ ?_ h
  rintro is c₁ o i c₂ o' ⟨o₁, hrun⟩ hs
  obtain ⟨⟨s, o₂⟩, hstep, heq⟩ := Option.map_eq_some_iff.mp hs
  cases heq
  exact ⟨o₁ ++ o₂, Mealy.run_concat hrun hstep⟩

/-- The panel has not been left to a session that was selected or deleted. -/
def Settled (c : Client) : Prop :=
  (∀ sessionId, c.app.handler ≠ .selecting sessionId) ∧ c.app.handler ≠ .removing

/-- Everything in the panel is from the active session. -/
def Own (c : Client) : Prop :=
  c.Settled → ∀ w ∈ c.panel.history, ∀ x ∈ w.sessions, c.app.activeSessionId = some x

/-- The history of a session is loaded, or nothing is shown of another one. -/
def Loads (c : Client) (i : ChatApp.Input) : Prop :=
  ∀ sessionId e, c.app.handler = .selecting sessionId → i = .responds (.error e) →
    ∀ w ∈ c.panel.history, ∀ x ∈ w.sessions, x = sessionId

end Client

/-! ## What a step does to the panel -/

namespace Panel

/-- The workers do not touch the panel. -/
theorem step_worker (p : Panel) (s : ChatApp) (k : ℕ) (i : WsInput) :
    p.step s (.worker k i) = p := by
  obtain ⟨ws, activeSessionId, streaming, text, inputEnabled, deleteEnabled, workers, posted,
    handler⟩ := s
  cases handler <;> rfl

theorem mem_updateLast {text : String} {sessions : List String} {ws : List Widget} {w : Widget}
    (h : w ∈ updateLast text sessions ws) : w ∈ ws ∨ w.sessions = sessions := by
  induction ws with
  | nil => exact Or.inl h
  | cons w' ws ih =>
      rw [updateLast] at h
      split at h
      · rcases List.mem_cons.mp h with rfl | h
        · exact Or.inl List.mem_cons_self
        · exact (ih h).imp_left (List.mem_cons_of_mem w')
      · split at h
        · rcases List.mem_cons.mp h with rfl | h
          · exact Or.inr rfl
          · exact Or.inl (List.mem_cons_of_mem w' h)
        · exact Or.inl h

/-- All of it is from a session. -/
def From (p : Panel) (active : Option String) : Prop :=
  ∀ w ∈ p.history, ∀ x ∈ w.sessions, active = some x

variable {p : Panel} {active : Option String}

theorem From.mount {cssClass : String} {content : Json} {sessions : List String}
    (h : p.From active) (hsessions : ∀ x ∈ sessions, active = some x) :
    (p.mount cssClass content sessions).From active := by
  intro w hw
  rcases List.mem_append.mp hw with hw | hw
  · exact h w hw
  · rw [List.mem_singleton.mp hw]
    exact hsessions

theorem From.mountNext {sessionId : String} (h : p.From (some sessionId)) (left : List Bubble) :
    (p.mountNext sessionId left).From (some sessionId) := by
  cases left with
  | nil => exact h
  | cons b left =>
      apply h.mount
      intro x hx
      rw [List.mem_singleton.mp hx]

theorem textSessions_mountNext (sessionId : String) (left : List Bubble) :
    (p.mountNext sessionId left).textSessions = p.textSessions := by
  cases left <;> rfl

/-- The sessions whose chunks are in the text: the active one, if there is one. -/
def TextFrom (p : Panel) (active : Option String) : Prop :=
  ∀ x ∈ p.textSessions, ∀ y, active = some y → x = y

theorem textFrom_nil (ws : List Widget) : TextFrom ⟨ws, []⟩ active := by
  intro x hx
  cases hx

theorem sessions_of_chunk {x : String} (htext : p.TextFrom active) (hx : some x = active) :
    ∀ y ∈ p.textSessions ++ [x], y = x := by
  intro y hy
  rcases List.mem_append.mp hy with hy | hy
  · exact htext y hy x hx.symm
  · exact List.mem_singleton.mp hy

/-- The handlers of the posted messages keep the text to the active session. -/
theorem TextFrom.onMessage {s : ChatApp} (h : p.TextFrom s.activeSessionId) (m : AppMessage) :
    (p.onMessage s m).TextFrom s.activeSessionId := by
  cases m with
  | streamChunk sessionId delta =>
      rw [Panel.onMessage]
      split
      · rename_i hactive
        intro x hx y hy
        rw [sessions_of_chunk h hactive x hx]
        exact Option.some.inj (hactive.trans hy)
      · exact h
  | streamDone sessionId | streamError sessionId code message =>
      rw [Panel.onMessage]
      split
      · exact textFrom_nil _
      · exact h
  | showSystemMessage text | wsConnected sessionId | wsDisconnected sessionId => exact h

/-- The handlers of the posted messages keep the panel to the active session. -/
theorem From.onMessage {s : ChatApp} (h : p.From s.activeSessionId)
    (htext : p.TextFrom s.activeSessionId) (m : AppMessage) :
    (p.onMessage s m).From s.activeSessionId := by
  cases m with
  | streamChunk sessionId delta =>
      rw [Panel.onMessage]
      split
      · rename_i hactive
        intro w hw x hx
        rcases mem_updateLast hw with hw | hw
        · exact h w hw x hx
        · rw [hw] at hx
          rw [sessions_of_chunk htext hactive x hx, hactive]
      · exact h
  | streamDone sessionId =>
      rw [Panel.onMessage]
      split
      · exact h
      · exact h
  | streamError sessionId code message =>
      rw [Panel.onMessage]
      split
      · rename_i hactive
        refine From.mount (p := { p with textSessions := [] }) h fun x hx ↦ ?_
        rw [List.mem_singleton.mp hx, hactive]
      · exact h
  | showSystemMessage text => exact h.mount (List.forall_mem_nil _)
  | wsConnected sessionId | wsDisconnected sessionId => exact h

end Panel

namespace AppHandler

/-- The session a handler loads the history of. -/
def loads? : AppHandler → Option String
  | selecting sessionId | mounting sessionId _ _ => some sessionId
  | _ => none

/-- It neither loads a history nor deletes a session. -/
def quiet : AppHandler → Bool
  | selecting _ | mounting .. | removing => false
  | _ => true

theorem loads?_of_quiet {h : AppHandler} (hquiet : h.quiet) : h.loads? = none := by
  cases h with
  | selecting x | mounting x left e => cases hquiet
  | _ => rfl

theorem settled_of_quiet {h : AppHandler} (hquiet : h.quiet) :
    (∀ x, h ≠ .selecting x) ∧ h ≠ .removing := by
  refine ⟨fun x hx ↦ ?_, fun hx ↦ ?_⟩
  · rw [hx] at hquiet
    cases hquiet
  · rw [hx] at hquiet
    cases hquiet

end AppHandler

namespace Client

/-- A history is loaded for the active session, and the text is from no other one. -/
structure Placed (c : Client) : Prop where
  active : ∀ x, c.app.handler.loads? = some x → c.app.activeSessionId = some x
  text : c.panel.TextFrom c.app.activeSessionId

/-- What a step does: the app is busy with other things, it keeps to the active session, it
turns to another one or to none, or it is done with that. -/
inductive Shows (c : Client) (i : ChatApp.Input) (c' : Client) : Prop where
  | idles (hi : ∀ r, i ≠ .responds r) (handler : c'.app.handler = c.app.handler)
      (active : c'.app.activeSessionId = c.app.activeSessionId) (panel : c'.panel = c.panel)
  | keeps (hs : c.Settled) (hs' : c'.Settled)
      (active : c'.app.activeSessionId = c.app.activeSessionId)
      (loads : ∀ x, c'.app.handler.loads? = some x → c.app.handler.loads? = some x)
      (text : c'.panel.TextFrom c.app.activeSessionId)
      (own : c.panel.From c.app.activeSessionId → c'.panel.From c.app.activeSessionId)
  | selects (x : String) (handler : c'.app.handler = .selecting x)
      (active : c'.app.activeSessionId = some x) (text : c'.panel.textSessions = [])
      (hi : ∀ r, i ≠ .responds r)
  | loads (x : String) (handler : c.app.handler = .selecting x) (hi : ∀ e, i ≠ .responds (.error e))
      (hs' : c'.Settled) (active : c'.app.activeSessionId = c.app.activeSessionId)
      (loads : ∀ y, c'.app.handler.loads? = some y → y = x)
      (text : c'.panel.textSessions = c.panel.textSessions) (own : c'.panel.From (some x))
  | fails (x : String) (e : PyExc) (handler : c.app.handler = .selecting x)
      (hi : i = .responds (.error e)) (handler' : c'.app.handler = .idle)
      (active : c'.app.activeSessionId = c.app.activeSessionId) (panel : c'.panel = c.panel)
  | deletes (hs : c.Settled) (handler : c'.app.handler = .removing)
      (active : c'.app.activeSessionId = none)
  | clears (handler : c.app.handler = .removing) (handler' : c'.app.handler = .idle)
      (active : c'.app.activeSessionId = c.app.activeSessionId) (history : c'.panel.history = [])
      (text : c'.panel.textSessions = c.panel.textSessions)

variable {c c' : Client} {i : ChatApp.Input} {o : List Obs}

theorem settled_of_quiet (h : c.app.handler.quiet) : c.Settled :=
  AppHandler.settled_of_quiet h

theorem Placed.of_shows (hc : c.Placed) (h : Shows c i c') : c'.Placed := by
  cases h with
  | idles hi handler active panel =>
      refine ⟨fun x hx ↦ ?_, ?_⟩
      · rw [handler] at hx
        rw [active, hc.active x hx]
      · rw [panel, active]
        exact hc.text
  | keeps hs hs' active loads text own =>
      refine ⟨fun x hx ↦ ?_, ?_⟩
      · rw [active, hc.active x (loads x hx)]
      · rw [active]
        exact text
  | selects x handler active text hi =>
      refine ⟨fun y hy ↦ ?_, fun y hy ↦ ?_⟩
      · rw [handler] at hy
        rw [active, ← hy]
        rfl
      · rw [text] at hy
        cases hy
  | loads x handler hi hs' active loads text own =>
      have hx : c.app.activeSessionId = some x := hc.active x (by rw [handler]; rfl)
      refine ⟨fun y hy ↦ ?_, fun y hy ↦ ?_⟩
      · rw [active, hx, loads y hy]
      · rw [text] at hy
        rw [active]
        exact hc.text y hy
  | fails x e handler hi handler' active panel =>
      refine ⟨fun y hy ↦ ?_, ?_⟩
      · rw [handler'] at hy
        cases hy
      · rw [panel, active]
        exact hc.text
  | deletes hs handler active =>
      refine ⟨fun y hy ↦ ?_, fun y hy z hz ↦ ?_⟩
      · rw [handler] at hy
        cases hy
      · rw [active] at hz
        cases hz
  | clears handler handler' active history text =>
      refine ⟨fun y hy ↦ ?_, fun y hy ↦ ?_⟩
      · rw [handler'] at hy
        cases hy
      · rw [text] at hy
        rw [active]
        exact hc.text y hy

/-- **One step** keeps the panel to the active session exactly if it does not fail to load a
history while another one is shown. -/
theorem own_iff_of_shows (hc : c.Placed) (hown : c.Own) (h : Shows c i c') :
    c'.Own ↔ c.Loads i := by
  cases h with
  | idles hi handler active panel =>
      refine iff_of_true ?_ fun x e hx hi' ↦ absurd hi' (hi _)
      rintro ⟨hselecting, hremoving⟩
      rw [handler] at hselecting hremoving
      rw [panel, active]
      exact hown ⟨hselecting, hremoving⟩
  | keeps hs hs' active loads text own =>
      refine iff_of_true (fun _ ↦ ?_) fun x e hx ↦ absurd hx (hs.1 x)
      rw [active]
      exact own (hown hs)
  | selects x handler active text hi =>
      exact iff_of_true (fun hs ↦ absurd handler (hs.1 x)) fun y e hy hi' ↦ absurd hi' (hi _)
  | loads x handler hi hs' active loads text own =>
      have hx : c.app.activeSessionId = some x := hc.active x (by rw [handler]; rfl)
      refine iff_of_true (fun _ ↦ ?_) fun y e hy hi' ↦ absurd hi' (hi e)
      rw [active, hx]
      exact own
  | fails x e handler hi handler' active panel =>
      have hx : c.app.activeSessionId = some x := hc.active x (by rw [handler]; rfl)
      have hs' : c'.Settled := settled_of_quiet (by rw [handler']; rfl)
      constructor
      · intro hown' y e' hy _ w hw z hz
        obtain rfl : x = y := AppHandler.selecting.inj (handler.symm.trans hy)
        rw [← panel] at hw
        have hz' := hown' hs' w hw z hz
        rw [active, hx] at hz'
        exact (Option.some.inj hz').symm
      · intro hloads _ w hw z hz
        rw [panel] at hw
        rw [active, hx, hloads x e handler hi w hw z hz]
  | deletes hs handler active =>
      exact iff_of_true (fun hs' ↦ absurd handler hs'.2) fun x e hx ↦ absurd hx (hs.1 x)
  | clears handler handler' active history text =>
      refine iff_of_true (fun _ w hw ↦ ?_) fun x e hx ↦ ?_
      · rw [history] at hw
        cases hw
      · cases handler.symm.trans hx

end Client

/-! ### The handlers -/

namespace ChatApp

variable {s s' : ChatApp}

/-- What the panel depends on. -/
structure SameShown (s s' : ChatApp) : Prop where
  handler : s'.handler = s.handler
  activeSessionId : s'.activeSessionId = s.activeSessionId
  currentAssistantText : s'.currentAssistantText = s.currentAssistantText

/-- A worker leaves it alone. -/
theorem sameShown_stepWorker {k : ℕ} {w : WsWorker} {i : WsInput}
    (h : s.stepWorker k w i = some s') : SameShown s s' := by
  obtain ⟨sessionId, phase, cancelled⟩ := w
  cases phase with
  | created =>
      cases i with
      | starts =>
          obtain ⟨-, h⟩ := of_ite_none_eq_some h
          cases h
          exact ⟨rfl, rfl, rfl⟩
      | fails e =>
          obtain ⟨-, h⟩ := of_ite_eq_some h
          cases h
          exact ⟨rfl, rfl, rfl⟩
      | _ => cases h
  | connecting =>
      cases i with
      | opens =>
          obtain ⟨-, h⟩ := of_ite_none_eq_some h
          cases h
          exact ⟨rfl, rfl, rfl⟩
      | fails e =>
          obtain ⟨-, h⟩ := of_ite_eq_some h
          cases h
          exact ⟨rfl, rfl, rfl⟩
      | _ => cases h
  | connected =>
      cases i with
      | receives frame =>
          obtain ⟨-, h⟩ := of_ite_none_eq_some h
          cases h
          exact ⟨rfl, rfl, rfl⟩
      | drops =>
          cases h
          exact ⟨rfl, rfl, rfl⟩
      | leaves e =>
          obtain ⟨-, h⟩ := of_ite_eq_some h
          cases h
          exact ⟨rfl, rfl, rfl⟩
      | _ => cases h
  | lost =>
      cases i with
      | receives frame =>
          obtain ⟨-, h⟩ := of_ite_none_eq_some h
          cases h
          exact ⟨rfl, rfl, rfl⟩
      | leaves e =>
          obtain ⟨-, h⟩ := of_ite_eq_some h
          cases h
          exact ⟨rfl, rfl, rfl⟩
      | _ => cases h
  | closing e =>
      cases i with
      | closes =>
          cases h
          exact ⟨rfl, rfl, rfl⟩
      | fails e' =>
          obtain ⟨-, h⟩ := of_ite_eq_some h
          cases h
          exact ⟨rfl, rfl, rfl⟩
      | _ => cases h
  | ended => cases i <;> cases h

theorem sameShown_worker {k : ℕ} {i : WsInput} {o : List Obs}
    (h : s.step (.worker k i) = some (s', o)) : SameShown s s' ∧ o = [] := by
  simp only [step] at h
  cases hw : s.workers[k]? with
  | none =>
      rw [hw] at h
      cases h
  | some w =>
      rw [hw] at h
      obtain ⟨s₁, hs, heq⟩ := Option.map_eq_some_iff.mp h
      cases heq
      exact ⟨sameShown_stepWorker hs, rfl⟩

theorem handler_onMessage (s : ChatApp) (m : AppMessage) :
    (s.onMessage m).handler = s.handler ∨ (s.onMessage m).handler = .displaying := by
  cases m with
  | showSystemMessage text => exact Or.inr rfl
  | streamError sessionId code message =>
      rw [onMessage]
      split
      · exact Or.inr rfl
      · exact Or.inl rfl
  | _ =>
      rw [onMessage]
      split
      · exact Or.inl rfl
      · exact Or.inl rfl

theorem quiet_onMessage (h : s.handler.quiet) (m : AppMessage) :
    (s.onMessage m).handler.quiet := by
  rcases handler_onMessage s m with hsame | hdisplaying
  · rw [hsame]
    exact h
  · rw [hdisplaying]
    rfl

theorem quiet_sendMessage (h : s.handler.quiet) (value : String) :
    (s.sendMessage value).handler.quiet := by
  rw [sendMessage]
  split
  · exact h
  · dsimp only
    split
    · exact h
    · split
      · rfl
      · rfl

/-- After a bubble the loop goes on with the session it has. -/
theorem handler_mountNext (s : ChatApp) (x : String) (left : List Bubble) (e : Option PyExc) :
    ((∀ y, (s.mountNext x left e).handler ≠ .selecting y) ∧
        (s.mountNext x left e).handler ≠ .removing) ∧
      (∀ y, (s.mountNext x left e).handler.loads? = some y → y = x) ∧
        (s.mountNext x left e).activeSessionId = s.activeSessionId := by
  have hquiet {s' : ChatApp} (h : s'.handler.quiet) (hactive : s'.activeSessionId =
      s.activeSessionId) : ((∀ y, s'.handler ≠ .selecting y) ∧ s'.handler ≠ .removing) ∧
        (∀ y, s'.handler.loads? = some y → y = x) ∧ s'.activeSessionId = s.activeSessionId := by
    refine ⟨AppHandler.settled_of_quiet h, fun y hy ↦ ?_, hactive⟩
    rw [AppHandler.loads?_of_quiet h] at hy
    cases hy
  cases left with
  | cons b left =>
      refine ⟨⟨fun y h ↦ ?_, fun h ↦ ?_⟩, fun y h ↦ (Option.some.inj h).symm, rfl⟩
      · cases h
      · cases h
  | nil =>
      cases e with
      | some e => exact hquiet rfl rfl
      | none => exact hquiet rfl rfl

end ChatApp

namespace Client

variable {c c' : Client} {i : ChatApp.Input} {o : List Obs}

theorem Shows.of_quiet (hs : c.app.handler.quiet) (hs' : c'.app.handler.quiet)
    (active : c'.app.activeSessionId = c.app.activeSessionId)
    (text : c'.panel.TextFrom c.app.activeSessionId)
    (own : c.panel.From c.app.activeSessionId → c'.panel.From c.app.activeSessionId) :
    Shows c i c' := by
  refine .keeps (settled_of_quiet hs) (settled_of_quiet hs') active (fun x hx ↦ ?_) text own
  rw [AppHandler.loads?_of_quiet hs'] at hx
  cases hx

/-- A step that leaves the panel as it is. -/
theorem Shows.of_same (hc : c.Placed) (hs : c.app.handler.quiet) (hs' : c'.app.handler.quiet)
    (active : c'.app.activeSessionId = c.app.activeSessionId) (panel : c'.panel = c.panel) :
    Shows c i c' := by
  refine .of_quiet hs hs' active ?_ ?_
  · rw [panel]
    exact hc.text
  · rw [panel]
    exact id

/-- `_send_message` mounts the question for the active session. -/
theorem from_sendMessage (hc : c.Placed) (value : String) :
    (c.panel.sendMessage c.app value).TextFrom c.app.activeSessionId ∧
      (c.panel.From c.app.activeSessionId →
        (c.panel.sendMessage c.app value).From c.app.activeSessionId) := by
  rw [Panel.sendMessage]
  split
  · exact ⟨hc.text, id⟩
  · dsimp only
    split
    · exact ⟨hc.text, id⟩
    · split
      · exact ⟨hc.text, id⟩
      · refine ⟨Panel.textFrom_nil _, fun h ↦ ?_⟩
        exact Panel.From.mount (p := { c.panel with textSessions := [] }) h
          fun x hx ↦ Option.mem_toList.mp hx

/-- **One step** of the handlers. -/
theorem shows_of_stepHandler {s' : ChatApp} {o : List ChatApp.Obs} (hc : c.Placed)
    (h : c.app.stepHandler i = some (s', o)) : Shows c i ⟨s', c.panel.step c.app i⟩ := by
  obtain ⟨⟨ws, activeSessionId, streaming, text, inputEnabled, deleteEnabled, workers, posted,
    handler⟩, panel⟩ := c
  cases handler with
  | idle =>
      cases i with
      | select x =>
          by_cases hactive : some x = activeSessionId
          · cases (if_pos hactive).symm.trans h
            exact .of_same hc rfl rfl rfl (if_pos hactive)
          · cases (if_neg hactive).symm.trans h
            have hpanel : panel.step ⟨ws, activeSessionId, streaming, text, inputEnabled,
                deleteEnabled, workers, posted, .idle⟩ (.select x) =
                { panel with textSessions := [] } := if_neg hactive
            rw [hpanel]
            exact .selects x rfl rfl rfl (fun r h ↦ by cases h)
      | pressNew uuid4 =>
          cases h
          exact .of_same hc rfl rfl rfl rfl
      | pressDelete =>
          cases activeSessionId with
          | none =>
              cases h
              exact .of_same hc rfl rfl rfl rfl
          | some x =>
              cases h
              exact .of_same hc rfl rfl rfl rfl
      | submit value =>
          cases h
          obtain ⟨htext, hown⟩ := from_sendMessage hc value
          exact .of_quiet rfl (ChatApp.quiet_sendMessage rfl value)
            (ChatApp.sameWiring_sendMessage _ value).activeSessionId htext hown
      | message =>
          cases posted with
          | nil => cases h
          | cons m posted =>
              cases h
              refine .of_quiet rfl (ChatApp.quiet_onMessage ?_ m)
                (ChatApp.sameWiring_onMessage _ m).activeSessionId (hc.text.onMessage m)
                fun h ↦ h.onMessage hc.text m
              rfl
      | _ => cases h
  | appending x =>
      cases i with
      | resumes =>
          cases h
          exact .selects x rfl rfl rfl (fun r h ↦ by cases h)
      | _ => cases h
  | selecting x =>
      cases i with
      | responds r =>
          cases r with
          | error e =>
              cases h
              exact .fails x e rfl rfl rfl rfl rfl
          | ok data =>
              cases h
              have hp : Panel.From { panel with history := [] } (some x) := by
                intro w hw
                cases hw
              obtain ⟨hs', hloads, hactive⟩ := ChatApp.handler_mountNext _ x
                (ChatApp.showHistory data).1 (ChatApp.showHistory data).2
              exact .loads x rfl (fun e h ↦ by cases h) hs' hactive hloads
                (Panel.textSessions_mountNext x _) (hp.mountNext _)
      | _ => cases h
  | mounting x left e =>
      cases i with
      | resumes =>
          cases h
          obtain rfl : activeSessionId = some x := hc.active x rfl
          obtain ⟨hs', hloads, hactive⟩ := ChatApp.handler_mountNext ⟨ws, some x, streaming, text,
            inputEnabled, deleteEnabled, workers, posted, .mounting x left e⟩ x left e
          refine .keeps ⟨fun y h ↦ (by cases h), fun h ↦ (by cases h)⟩ hs' hactive ?_ ?_
            fun h ↦ h.mountNext left
          · intro y hy
            rw [hloads y hy]
            rfl
          · have htext := Panel.textSessions_mountNext (p := panel) x left
            intro y hy
            exact hc.text y (htext ▸ hy)
      | _ => cases h
  | deleting x =>
      cases i with
      | responds r =>
          cases r with
          | error e =>
              cases h
              exact .of_same hc rfl rfl rfl rfl
          | ok data =>
              cases h
              exact .deletes (settled_of_quiet rfl) rfl rfl
      | _ => cases h
  | removing =>
      cases i with
      | resumes =>
          cases h
          exact .clears rfl rfl rfl rfl rfl
      | _ => cases h
  | creating x =>
      cases i with
      | responds r =>
          cases r with
          | error e | ok data =>
              cases h
              exact .of_same hc rfl rfl rfl rfl
      | _ => cases h
  | mountingQuestion content =>
      cases i with
      | resumes =>
          cases h
          refine .of_quiet rfl rfl rfl hc.text fun h ↦ ?_
          exact h.mount fun x hx ↦ Option.mem_toList.mp hx
      | _ => cases h
  | mountingAnswer content =>
      cases i with
      | resumes =>
          cases ws with
          | none | some ws =>
              cases h
              exact .of_same hc rfl rfl rfl rfl
      | _ => cases h
  | sending =>
      cases i with
      | resumes | sendFails e =>
          cases h
          exact .of_same hc rfl rfl rfl rfl
      | _ => cases h
  | displaying =>
      cases i with
      | resumes =>
          cases h
          exact .of_same hc rfl rfl rfl rfl
      | _ => cases h
  | raised e => cases i <;> cases h

/-- **One step** of the client. -/
theorem shows_of_step (hc : c.Placed) (h : c.step i = some (c', o)) : Shows c i c' := by
  obtain ⟨⟨s', o'⟩, hstep, heq⟩ := Option.map_eq_some_iff.mp h
  cases heq
  cases i with
  | worker k i =>
      obtain ⟨hsame, -⟩ := ChatApp.sameShown_worker hstep
      exact .idles (fun r h ↦ by cases h) hsame.handler hsame.activeSessionId
        (Panel.step_worker c.panel c.app k i)
  | _ => exact shows_of_stepHandler hc hstep

/-! ## The runs -/

/-- **Whose messages the app shows.**  Everything in the panel is from the active session, in
all states a run comes to, exactly if no history fails to load while the panel shows another
session. -/
theorem own_iff_loads {is : List ChatApp.Input} {c : Client} {o : List Obs}
    (h : machine.run {} is = some (c, o)) :
    (∀ js c₁ o₁, js <+: is → machine.run {} js = some (c₁, o₁) → c₁.Own) ↔
      machine.StepsMeet Loads {} is := by
  refine Mealy.run_forall_prefix_iff (I := Placed) (P := fun c _ ↦ c.Own) ?_ ?_ ?_ ?_ h
  · exact ⟨fun x hx ↦ (by cases hx), fun x hx ↦ (by cases hx)⟩
  · intro _ w hw
    cases hw
  · intro c₁ i c₂ o₂ hc hs
    exact hc.of_shows (shows_of_step hc hs)
  · intro c₁ o₁ i c₂ o₂ hc hown hs
    exact own_iff_of_shows hc hown (shows_of_step hc hs)

/-- The history of a session is shown, and the user asks something and is told something. -/
def sampleAsked : List ChatApp.Input :=
  ChatApp.connects "a" 0 ++ [.submit "hi", .resumes, .resumes, .resumes,
    .worker 0 (.receives (some (.chunk "yo"))), .message]

theorem own_sampleAsked : ∃ c o, machine.run {} sampleAsked = some (c, o) ∧
    c.panel.history.map (·.sessions) = [["a"], ["a"]] ∧ c.Own := by
  have hloads : machine.StepsMeet Loads {} sampleAsked := by
    intro js i c o hp hr x e _ hi
    have hmem : i ∈ sampleAsked := Mealy.mem_of_concat_prefix hp
    rw [hi] at hmem
    simp [sampleAsked, ChatApp.connects] at hmem
  exact ⟨_, _, rfl, rfl, (own_iff_loads rfl).mpr hloads _ _ _ List.prefix_rfl rfl⟩

/-- The history of another session cannot be loaded: the panel is left to the first. -/
example : ∃ c o, machine.run {} (sampleAsked ++ [.select "b", .responds (.error (.osError ""))]) =
    some (c, o) ∧ c.app.activeSessionId = some "b" ∧
      c.panel.history.map (·.sessions) = [["a"], ["a"]] := ⟨_, _, rfl, rfl, rfl⟩

/-! ## The screen of one session -/

/-- What the app shows, without the sessions. -/
def screen (c : Client) : Screen := ⟨c.app.currentAssistantText, c.panel.history.map (·.bubble)⟩

/-- What the screen of a session shows after the app has done something. -/
def Obs.shows (x : String) (s : Screen) : Obs → Screen
  | .asks content => s.sendMessage content
  | .handles (.streamChunk y delta) => if y = x then s.onStreamChunk delta else s
  | .handles (.streamDone y) => if y = x then s.onStreamDone else s
  | .handles (.streamError y code message) => if y = x then s.onStreamError code message else s
  | .handles (.showSystemMessage text) =>
      { s with history := s.history ++ [⟨"system-message", .str text⟩] }
  | .handles (.wsConnected _) | .handles (.wsDisconnected _) | .sends .. => s

/-- The session is deleted. -/
def deletes (c : Client) (i : ChatApp.Input) : Bool :=
  match c.app.handler, i with
  | .deleting _, .responds (.ok _) => true
  | _, _ => false

/-- No session is selected or deleted. -/
def Stays (c : Client) (i : ChatApp.Input) : Prop :=
  c.app.selects i = none ∧ c.deletes i = false

/-- The screen once `_send_message` has mounted the answer. -/
def mounted (c : Client) : Screen :=
  match c.app.handler with
  | .mountingQuestion _ =>
      { c.screen with history := c.screen.history ++ [⟨"assistant-message", .str ""⟩] }
  | _ => c.screen

theorem map_updateLast (text : String) (sessions : List String) (ws : List Widget) :
    (Panel.updateLast text sessions ws).map (·.bubble) =
      Screen.updateLast text (ws.map (·.bubble)) := by
  induction ws with
  | nil => rfl
  | cons w ws ih =>
      have hany : (ws.map (·.bubble)).any (·.cssClass == "assistant-message") =
          ws.any (·.bubble.cssClass == "assistant-message") := List.any_map
      rw [Panel.updateLast, List.map_cons, Screen.updateLast, hany]
      split
      · rw [List.map_cons, ih]
      · split
        · rfl
        · rfl

theorem screen_onMessage {x : String} {s : ChatApp} (hactive : s.activeSessionId = some x)
    (p : Panel) (m : AppMessage) :
    (⟨(s.onMessage m).currentAssistantText, (p.onMessage s m).history.map (·.bubble)⟩ : Screen) =
      Obs.shows x ⟨s.currentAssistantText, p.history.map (·.bubble)⟩ (.handles m) := by
  have hiff (y : String) : some y = s.activeSessionId ↔ y = x := by
    rw [hactive]
    exact Option.some_inj
  cases m with
  | streamChunk y delta =>
      simp only [ChatApp.onMessage, Panel.onMessage, Obs.shows, hiff]
      split
      · rw [map_updateLast]
        rfl
      · rfl
  | streamDone y =>
      simp only [ChatApp.onMessage, Panel.onMessage, Obs.shows, hiff]
      split
      · rfl
      · rfl
  | streamError y code message =>
      simp only [ChatApp.onMessage, Panel.onMessage, Obs.shows, hiff]
      split
      · simp [Panel.mount, Screen.onStreamError]
      · rfl
  | showSystemMessage text => simp [ChatApp.onMessage, Panel.onMessage, Obs.shows, Panel.mount]
  | wsConnected y | wsDisconnected y =>
      simp only [ChatApp.onMessage, Panel.onMessage, Obs.shows]
      split
      · rfl
      · rfl

/-- A step that stays with a session. -/
structure Follows (x : String) (c : Client) (o : List Obs) (c' : Client) : Prop where
  quiet : c'.app.handler.quiet
  active : c'.app.activeSessionId = some x
  mounted : c'.mounted = o.foldl (Obs.shows x) c.mounted

theorem mounted_of_ne (h : ∀ content, c.app.handler ≠ .mountingQuestion content) :
    c.mounted = c.screen := by
  rw [mounted]
  split
  · rename_i content hc
    exact absurd hc (h content)
  · rfl

/-- `_send_message` takes a text, and then asks with it. -/
theorem follows_submit {x : String} {s : ChatApp} (p : Panel) (hidle : s.handler = .idle)
    (hactive : s.activeSessionId = some x) (value : String) :
    Follows x ⟨s, p⟩ (begins s (.submit value))
      ⟨s.sendMessage value, p.sendMessage s value⟩ := by
  have hsame : Follows x ⟨s, p⟩ [] ⟨s, p⟩ := ⟨by rw [hidle]; rfl, hactive, rfl⟩
  have hmounted : (⟨s, p⟩ : Client).mounted = screen ⟨s, p⟩ := by
    apply mounted_of_ne
    intro content h
    cases hidle.symm.trans h
  rw [begins, ChatApp.sendMessage, Panel.sendMessage]
  by_cases hstreaming : s.streaming = true
  · rw [if_pos (Or.inl hstreaming), if_pos hstreaming, if_pos hstreaming]
    exact hsame
  · rw [if_neg hstreaming, if_neg hstreaming]
    dsimp only
    split
    · rename_i hnone
      split
      · exact hsame
      · rename_i hempty
        have hws : s.ws = none := by
          rcases hnone with h | h | h
          · exact absurd h hstreaming
          · exact absurd h hempty
          · exact h
        rw [if_pos hws, if_pos hws]
        refine ⟨rfl, hactive, ?_⟩
        rw [List.foldl_nil, hmounted]
        rfl
    · rename_i hsome
      rw [if_neg fun h ↦ hsome (Or.inr (Or.inl h)), if_neg fun h ↦ hsome (Or.inr (Or.inr h)),
        if_neg fun h ↦ hsome (Or.inr (Or.inl h)), if_neg fun h ↦ hsome (Or.inr (Or.inr h))]
      refine ⟨rfl, hactive, ?_⟩
      rw [List.foldl_cons, List.foldl_nil, hmounted]
      simp [mounted, screen, Panel.mount, Obs.shows, Screen.sendMessage]

/-- **One step** of the handlers. -/
theorem follows_stepHandler {x : String} {s' : ChatApp} {o : List ChatApp.Obs}
    (hquiet : c.app.handler.quiet) (hactive : c.app.activeSessionId = some x)
    (hstays : c.Stays i) (h : c.app.stepHandler i = some (s', o)) :
    Follows x c (begins c.app i ++ o.map .ofApp) ⟨s', c.panel.step c.app i⟩ := by
  obtain ⟨⟨ws, activeSessionId, streaming, text, inputEnabled, deleteEnabled, workers, posted,
    handler⟩, panel⟩ := c
  cases handler with
  | selecting y | mounting y left e | removing => cases hquiet
  | idle =>
      cases i with
      | select y =>
          by_cases hy : some y = activeSessionId
          · cases (if_pos hy).symm.trans h
            refine ⟨rfl, hactive, ?_⟩
            have hpanel : panel.step ⟨ws, activeSessionId, streaming, text, inputEnabled,
                deleteEnabled, workers, posted, .idle⟩ (.select y) = panel := if_pos hy
            rw [hpanel]
            rfl
          · cases (if_neg hy).symm.trans hstays.1
      | pressNew uuid4 =>
          cases h
          exact ⟨rfl, hactive, rfl⟩
      | pressDelete =>
          cases activeSessionId with
          | none => cases hactive
          | some y =>
              cases h
              exact ⟨rfl, hactive, rfl⟩
      | submit value =>
          cases h
          rw [List.map_nil, List.append_nil]
          exact follows_submit panel rfl hactive value
      | message =>
          cases posted with
          | nil => cases h
          | cons m posted =>
              cases h
              have hwires := ChatApp.sameWiring_onMessage ⟨ws, activeSessionId, streaming, text,
                inputEnabled, deleteEnabled, workers, posted, .idle⟩ m
              refine ⟨ChatApp.quiet_onMessage rfl m, hwires.activeSessionId.trans hactive, ?_⟩
              have hscreen := screen_onMessage (s := ⟨ws, activeSessionId, streaming, text,
                inputEnabled, deleteEnabled, workers, posted, .idle⟩) hactive panel m
              refine Eq.trans (mounted_of_ne fun content hcontent ↦ ?_) hscreen
              rcases ChatApp.handler_onMessage _ m with hsame | hdisplaying
              · cases hsame.symm.trans hcontent
              · cases hdisplaying.symm.trans hcontent
      | _ => cases h
  | creating y =>
      cases i with
      | responds r =>
          cases r with
          | error e | ok data =>
              cases h
              exact ⟨rfl, hactive, rfl⟩
      | _ => cases h
  | appending y =>
      cases i with
      | resumes => cases hstays.1
      | _ => cases h
  | deleting y =>
      cases i with
      | responds r =>
          cases r with
          | error e =>
              cases h
              exact ⟨rfl, hactive, rfl⟩
          | ok data => cases hstays.2
      | _ => cases h
  | mountingQuestion content =>
      cases i with
      | resumes =>
          cases h
          refine ⟨rfl, hactive, ?_⟩
          simp [mounted, screen, Panel.step, Panel.mount, begins]
      | _ => cases h
  | mountingAnswer content =>
      cases i with
      | resumes =>
          cases ws with
          | none | some ws =>
              cases h
              exact ⟨rfl, hactive, rfl⟩
      | _ => cases h
  | sending =>
      cases i with
      | resumes | sendFails e =>
          cases h
          exact ⟨rfl, hactive, rfl⟩
      | _ => cases h
  | displaying =>
      cases i with
      | resumes =>
          cases h
          exact ⟨rfl, hactive, rfl⟩
      | _ => cases h
  | raised e => cases i <;> cases h

/-- **One step** of the client. -/
theorem follows_step {x : String} (hquiet : c.app.handler.quiet)
    (hactive : c.app.activeSessionId = some x) (hstays : c.Stays i)
    (h : c.step i = some (c', o)) : Follows x c o c' := by
  obtain ⟨⟨s', o'⟩, hstep, heq⟩ := Option.map_eq_some_iff.mp h
  cases heq
  cases i with
  | worker k i =>
      obtain ⟨hsame, rfl⟩ := ChatApp.sameShown_worker hstep
      refine ⟨?_, hsame.activeSessionId.trans hactive, ?_⟩
      · rw [hsame.handler]
        exact hquiet
      · simp only [mounted, screen, hsame.handler, hsame.currentAssistantText, Panel.step_worker]
        rfl
  | _ => exact follows_stepHandler hquiet hactive hstays hstep

/-- **A session on its own.**  While no session is selected or deleted, the app shows what the
messages of the active session make of a screen of their own, whatever the workers of other
sessions post in between. -/
theorem screen_of_run {x : String} {is : List ChatApp.Input} (hidle : c.app.handler = .idle)
    (hactive : c.app.activeSessionId = some x) (h : machine.run c is = some (c', o))
    (hstays : machine.StepsMeet Stays c is)
    (hmounted : ∀ content, c'.app.handler ≠ .mountingQuestion content) :
    c'.screen = o.foldl (Obs.shows x) c.screen := by
  have hquiet : c.app.handler.quiet := by
    rw [hidle]
    rfl
  have hfollows : Follows x c o c' := by
    refine Mealy.run_induction_of_steps (P := fun _ c' o ↦ Follows x c o c') ?_ ?_ h hstays
    · exact ⟨hquiet, hactive, rfl⟩
    · intro is c₁ o₁ i c₂ o₂ hfollows hi hs
      obtain ⟨hquiet₂, hactive₂, hmounted₂⟩ := follows_step hfollows.quiet hfollows.active hi hs
      refine ⟨hquiet₂, hactive₂, ?_⟩
      rw [hmounted₂, hfollows.mounted, List.foldl_append]
  rw [← mounted_of_ne hmounted, hfollows.mounted, mounted_of_ne]
  intro content hc
  cases hidle.symm.trans hc

instance (c : Client) (i : ChatApp.Input) : Decidable (c.Stays i) :=
  inferInstanceAs (Decidable (_ ∧ _))

/-- The worker of a session posts a chunk before another one is selected. -/
def sampleLeft : List ChatApp.Input :=
  ChatApp.connects "b" 0 ++ [.worker 0 (.receives (some (.chunk "old"))), .select "a",
    .responds (.ok (.obj [("messages", .arr [])])), .worker 1 .starts, .worker 1 .opens]

/-- What is posted is handled, and the user asks something and is told something. -/
def sampleTold : List ChatApp.Input :=
  [.message, .message, .submit "hi", .resumes, .resumes, .resumes,
    .worker 1 (.receives (some (.chunk "yo"))), .message]

/-- The client between the two. -/
def sampleOpen : Client := ((machine.run {} sampleLeft).map Prod.fst).getD {}

/-- The chunk of the other session is not shown. -/
theorem screen_sampleTold : ∃ o₁ c o, machine.run {} sampleLeft = some (sampleOpen, o₁) ∧
    machine.run sampleOpen sampleTold = some (c, o) ∧
      c.screen = o.foldl (Obs.shows "a") sampleOpen.screen ∧
        c.screen.currentAssistantText = "yo" := by
  have hstays : machine.StepsMeet Stays sampleOpen sampleTold := .of_checks (by decide)
  refine ⟨_, _, _, rfl, rfl, screen_of_run rfl rfl rfl hstays ?_, rfl⟩
  intro content h
  cases h

end Client
