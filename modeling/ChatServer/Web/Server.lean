import ChatServer.Web.ErrorHandling
import ChatServer.Web.Occupancy

/-!
# The server

The HTTP routes of `session_routes.py` and `handle_ws` of `ws_handler.py` from its first
line on, over one registry `app.state.sessions` and one store: any number of requests,
connections and stream tasks, each of which may be suspended at any of its awaits while
any other goes on.  A request is named by its position in the list of requests, a
`SessionConnections` object by its position in the list of objects.

The bodies of `create_uc.execute` and `get_uc.execute` await nothing that suspends.  Here
they may be suspended before they do anything and again before their result is taken, so
what is proved does not lean on it.  An object is listed as soon as its session is made;
nothing refers to it before it is registered.

A handler that has found its object is one of the handlers of this object, and goes on as
in `ChatServer.Web.Handler`.
-/

open FileTree

/-- A `SessionConnections` object with its handlers and tasks. -/
structure Held where
  sc : SessionConnections
  handlers : List HandlerPhase := []
  tasks : List StreamTask := []

namespace Held

/-- The object over a tree. -/
def onTree (obj : Held) (t : FileTree) : WsHandler.State := ⟨t, obj.sc, obj.handlers, obj.tasks⟩

/-- What a step of its handlers leaves of it. -/
def of (w : WsHandler.State) : Held := ⟨w.sc, w.handlers, w.tasks⟩

/-- `SessionConnections(session=session)`. -/
def fresh (session : Session) : Held := { sc := { session } }

end Held

/-- The three routes that show a session. -/
inductive GetRoute where
  | session
  | info
  | messages
deriving DecidableEq, Repr

/-- Who loads a session on demand. -/
inductive Loader where
  | get (route : GetRoute)
  | connect
deriving DecidableEq, Repr

/-- `SessionInfo`. -/
structure SessionInfo where
  id : String
  createdAt : Datetime
  completionConfig : CompletionConfig
  statistics : Option StatsData := none
deriving DecidableEq

/-- What a request is answered with. -/
inductive Reply where
  /-- 201 with a `SessionSummary`. -/
  | summary (sessionId : String) (createdAt : Datetime) (messageCount : ℕ)
  /-- 200 with a `SessionDetail`. -/
  | detail (info : SessionInfo) (messages : List MessageRecord)
  | info (info : SessionInfo)
  | messages (messages : List MessageRecord)
  | ids (ids : List String)
  /-- 204. -/
  | noContent
  /-- An `HTTPException`, or the refusal of the request by its model. -/
  | error (status : ℕ) (detail : String)
deriving DecidableEq

/-- What a route shows of a session. -/
def GetRoute.show (s : Session) : GetRoute → Reply
  | session => .detail ⟨s.id, s.createdAt, s.completionConfig,
      s.usageStats.lifecycleTotalData.orNone⟩ s.messages
  | info => .info ⟨s.id, s.createdAt, s.completionConfig, s.usageStats.lifecycleTotalData.orNone⟩
  | messages => .messages s.messages

/-- Where a request is suspended. -/
inductive RequestPhase where
  /-- In `create_uc.execute`, which has not run. -/
  | creating (id : String)
  /-- In `create_uc.execute`, which has made an object. -/
  | created (id : String) (k : ℕ)
  /-- In `get_uc.execute`, which has not run. -/
  | loading (id : String) (loader : Loader)
  /-- In `get_uc.execute`, which has made an object. -/
  | loaded (id : String) (loader : Loader) (k : ℕ)
  /-- In `sc.ws.close(code=1001)`. -/
  | deleting (id : String)
  /-- In the `accept()` before a `close` with a code. -/
  | refusing (code : ℕ)
  /-- In this `close`. -/
  | closing
  | ended
deriving DecidableEq, Repr

/-- The registry, its objects, the store and the requests. -/
structure Server where
  tree : FileTree
  sessions : OrderedDict String ℕ := ∅
  objects : List Held := []
  requests : List RequestPhase := []

namespace Server

/-- A server that has just been started. -/
def start (t : FileTree) : Server := { tree := t }

/-- What happens to the server. -/
inductive Input where
  /-- `POST /session`. -/
  | post (id : String)
  /-- `GET /session/{id}`, with `/info` or `/messages` after it or not. -/
  | get (id : String) (route : GetRoute)
  /-- `GET /sessions`. -/
  | list
  /-- `DELETE /session/{id}`; the fault strikes `rmtree` if it runs at once. -/
  | delete (id : String) (fault : Option (Errno × (List String → Bool)))
  /-- A client connects to `/session/{id}/ws`. -/
  | connect (id : String)
  /-- The body of `create_uc.execute` runs. -/
  | creates (r : ℕ) (now : Datetime) (ref : StatsRef) (faults : List (Option Fault))
  /-- The body of `get_uc.execute` runs. -/
  | loads (r : ℕ) (ref : StatsRef)
  /-- The result of an `execute` is taken. -/
  | resumes (r : ℕ)
  /-- A `close` returns or raises; the fault strikes `rmtree` if it runs now. -/
  | closed (r : ℕ) (fault : Option (Errno × (List String → Bool)))
  /-- The `accept()` of a handler that found no session returns. -/
  | accepted (r : ℕ)
  /-- It raises. -/
  | acceptFails (r : ℕ)
  /-- Anything that happens to the handlers and tasks of an object. -/
  | object (k : ℕ) (i : WsHandler.Input)

/-- What can be observed. -/
inductive Obs where
  | answers (r : ℕ) (reply : Reply)
  /-- An exception leaves the handler of a request. -/
  | raises (r : ℕ) (e : PyExc)
  /-- `close` is called. -/
  | closes (r : ℕ) (code : ℕ)
  /-- The directory of a session has come to be; the objects made from now on are
  numbered from `k`. -/
  | makes (id : String) (k : ℕ)
  | object (k : ℕ) (o : WsHandler.Obs)
deriving DecidableEq

/-- A new request. -/
def addRequest (w : Server) (phase : RequestPhase) : Server :=
  { w with requests := w.requests ++ [phase] }

/-- A request goes on to a phase. -/
def setRequest (w : Server) (r : ℕ) (phase : RequestPhase) : Server :=
  { w with requests := w.requests.set r phase }

/-- `sessions[id] = sc`. -/
def register (w : Server) (id : String) (k : ℕ) : Server :=
  { w with sessions := w.sessions.set id k }

/-- `sessions.pop(id, None)`. -/
def unregister (w : Server) (id : String) : Server :=
  { w with sessions := w.sessions.filterKeys (· ≠ id) }

/-- An object has been made. -/
def addObject (w : Server) (session : Session) : Server :=
  { w with objects := w.objects ++ [.fresh session] }

/-- What a step of an object leaves. -/
def setObject (w : Server) (k : ℕ) (c : WsHandler.State) : Server :=
  { w with tree := c.tree, objects := w.objects.set k (.of c) }

/-- `handle_ws` has found its object. -/
def connectTo (w : Server) (k : ℕ) : Option Server :=
  w.objects[k]?.map fun obj ↦ w.setObject k (obj.onTree w.tree).connect

section

variable [LlmPortFactory] [SessionCodec]

/-- `create_session`. -/
def onPost (w : Server) (id : String) : Server × List Obs :=
  let r := w.requests.length
  if id = "" then
    (w.addRequest .ended, [.answers r (.error 422 "String should have at least 1 character")])
  else
    match w.sessions.get? id with
    | some _ => (w.addRequest .ended, [.answers r (.error 409 "Session already exists")])
    | none => (w.addRequest (.creating id), [])

/-- The routes that show a session. -/
def onGet (w : Server) (id : String) (route : GetRoute) : Option (Server × List Obs) :=
  let r := w.requests.length
  match w.sessions.get? id with
  | some k => w.objects[k]?.map fun obj ↦
      (w.addRequest .ended, [.answers r (route.show obj.sc.session)])
  | none => some (w.addRequest (.loading id (.get route)), [])

/-- `handle_ws`. -/
def onConnect (w : Server) (id : String) : Option (Server × List Obs) :=
  match w.sessions.get? id with
  | some k => (w.connectTo k).map fun w ↦ (w, [])
  | none => some (w.addRequest (.loading id .connect), [])

/-- `list_sessions`. -/
def onList (app : App) (w : Server) : Server × List Obs :=
  let r := w.requests.length
  match app.repository.getSessionIds w.tree with
  | .ok ids => (w.addRequest .ended, [.answers r (.ids ids)])
  | .error e => (w.addRequest .ended, [.raises r e])

/-- The answer of `delete_session` to the outcome of `delete_uc.execute`. -/
def deleteReply (r : ℕ) (id : String) (outcome : Except PyExc Unit) : Obs :=
  match handleStorageErrors "Failed to delete" id outcome with
  | .ok () => .answers r .noContent
  | .error (.raised (.fileNotFoundError _)) => .answers r .noContent
  | .error (.raised e) => .raises r e
  | .error (.storageError _ _) => .answers r (.error 500 "Could not delete session data")

/-- `delete_session` after the `close`. -/
def finishDelete (app : App) (w : Server) (r : ℕ) (id : String)
    (fault : Option (Errno × (List String → Bool))) : Server × List Obs :=
  let (tree, outcome) := app.repository.deleteSession w.tree id fault
  ({ w with tree }, [deleteReply r id outcome])

/-- `delete_session`. -/
def onDelete (app : App) (w : Server) (id : String)
    (fault : Option (Errno × (List String → Bool))) : Option (Server × List Obs) :=
  let r := w.requests.length
  let w' := w.unregister id
  match w.sessions.get? id with
  | some k => w.objects[k]?.map fun obj ↦
      match obj.sc.ws with
      | some _ => (w'.addRequest (.deleting id), [.closes r 1001])
      | none => (w'.addRequest .ended).finishDelete app r id fault
  | none => some ((w'.addRequest .ended).finishDelete app r id fault)

/-- The body of `create_uc.execute`, and `create_session` when it raises. -/
def onCreates (app : App) (w : Server) (r : ℕ) (id : String) (now : Datetime) (ref : StatsRef)
    (faults : List (Option Fault)) : Server × List Obs :=
  let k := w.objects.length
  let dir := app.repository.sessionDir id
  let (tree, outcome) := app.createSession w.tree id now ref faults
  let made := if ¬ w.tree.pathExists dir ∧ tree.pathExists dir then [.makes id k] else []
  match handleStorageErrors "Failed to save" id outcome with
  | .ok session =>
      (({ w with tree }.addObject session).setRequest r (.created id k), made)
  | .error (.raised (.fileExistsError _)) =>
      ({ w with tree }.setRequest r .ended,
        made ++ [.answers r (.error 409 "Session already exists on disk")])
  | .error (.raised e) => ({ w with tree }.setRequest r .ended, made ++ [.raises r e])
  | .error (.storageError _ original) =>
      ({ w with tree }.setRequest r .ended,
        made ++ [.answers r (.error 500 s!"Failed to save session: {original.str}")])

/-- The `except` clauses around `get_uc.execute`, for a request and for a handler. -/
def onLoadFails (w : Server) (r : ℕ) : WebExc → Loader → Server × List Obs
  | .raised (.fileNotFoundError _), .get _ =>
      (w.setRequest r .ended, [.answers r (.error 404 "Session not found")])
  | .raised (.fileNotFoundError _), .connect => (w.setRequest r (.refusing 4404), [])
  | .raised e, _ => (w.setRequest r .ended, [.raises r e])
  | .storageError _ _, .get _ =>
      (w.setRequest r .ended, [.answers r (.error 500 "Could not read session data")])
  | .storageError _ _, .connect => (w.setRequest r (.refusing 4500), [])

/-- The body of `get_uc.execute`. -/
def onLoads (app : App) (w : Server) (r : ℕ) (id : String) (loader : Loader) (ref : StatsRef) :
    Server × List Obs :=
  match handleStorageErrors "Failed to load" id (app.getSession w.tree id ref) with
  | .ok session =>
      ((w.addObject session).setRequest r (.loaded id loader w.objects.length), [])
  | .error e => w.onLoadFails r e loader

/-- What is done with an object that was made. -/
def onResumes (w : Server) (r : ℕ) : RequestPhase → Option (Server × List Obs)
  | .created id k => w.objects[k]?.map fun obj ↦
      ((w.register id k).setRequest r .ended,
        [.answers r (.summary obj.sc.session.id obj.sc.session.createdAt 0)])
  | .loaded id (.get route) k => w.objects[k]?.map fun obj ↦
      ((w.register id k).setRequest r .ended, [.answers r (route.show obj.sc.session)])
  | .loaded id .connect k =>
      (((w.register id k).setRequest r .ended).connectTo k).map fun w ↦ (w, [])
  | _ => none

variable [UnicodeData]

/-- One step: `none` when nobody waits for the input. -/
def step (app : App) (w : Server) : Input → Option (Server × List Obs)
  | .post id => some (w.onPost id)
  | .get id route => w.onGet id route
  | .list => some (w.onList app)
  | .delete id fault => w.onDelete app id fault
  | .connect id => w.onConnect id
  | .creates r now ref faults =>
      match w.requests[r]? with
      | some (.creating id) => some (w.onCreates app r id now ref faults)
      | _ => none
  | .loads r ref =>
      match w.requests[r]? with
      | some (.loading id loader) => some (w.onLoads app r id loader ref)
      | _ => none
  | .resumes r =>
      match w.requests[r]? with
      | some phase => w.onResumes r phase
      | none => none
  | .closed r fault =>
      match w.requests[r]? with
      | some (.deleting id) => some ((w.setRequest r .ended).finishDelete app r id fault)
      | some .closing => some (w.setRequest r .ended, [])
      | _ => none
  | .accepted r =>
      match w.requests[r]? with
      | some (.refusing code) => some (w.setRequest r .closing, [.closes r code])
      | _ => none
  | .acceptFails r =>
      match w.requests[r]? with
      | some (.refusing _) => some (w.setRequest r .ended, [])
      | _ => none
  | .object _ .connects => none
  | .object k i =>
      match w.objects[k]? with
      | some obj => (WsHandler.step app.repository (obj.onTree w.tree) i).map fun (c, o) ↦
          (w.setObject k c, o.map (.object k))
      | none => none

/-- The machine of the server. -/
def machine (app : App) : Mealy Server Input Obs := ⟨step app⟩

end

/-! ## A server to evaluate runs on -/

/-- The machine over the sample app. -/
def sampleMachine : Mealy Server Input Obs :=
  @machine App.sampleFactory App.sampleCodec .asciiOnly App.sample

/-- A server over an empty store. -/
def sampleStart : Server := .start App.sampleTree

/-- The session `s` is made, and a client connects to it. -/
def sampleOpen : List Input :=
  [.post "s", .creates 0 ⟨0⟩ ⟨0⟩ [], .resumes 0, .connect "s"]

end Server
