import ChatServer.Web.Answer

/-!
# One client and the loop that serves it

A `Chat` is one client, the handler and the stream tasks that serve it, and the frames
under way between them, in order.  The client keeps to the rule of `client.py`: it sends a
message only while it is not streaming, and the first `DoneFrame` or `ErrorFrame` it
receives ends its streaming.  A frame is under way from the call of `send_text` on, so it
may arrive while the task that sent it is still suspended in that call.

What keeps the loop from refusing a message is a balance.  A message on its way, a task
that has not yet told of its end, and a terminal frame on its way back are one and the same
claim on the client, which is streaming for it (`Chat.Balanced`).  It is lost when a turn
tells of its end twice, and it says nothing about a task that has told of its end and is
not done; these are the two conditions of `Chat.AfterTheEnd`.
-/

open StreamTask

instance : DecidablePred ServerFrame.IsTerminal
  | .done .. | .error .. => isTrue trivial
  | .chunk _ | .pong => isFalse id

/-- A frame that asks for a turn. -/
def ClientFrame.IsMessage : ClientFrame → Prop
  | .sendMessage _ => True
  | _ => False

instance : DecidablePred ClientFrame.IsMessage
  | .sendMessage _ => isTrue trivial
  | .cancel | .ping => isFalse id

/-- How many messages there are. -/
def asked (fs : List ClientFrame) : ℕ := fs.countP (·.IsMessage)

theorem asked_cons (f : ClientFrame) (fs : List ClientFrame) :
    asked (f :: fs) = asked fs + if f.IsMessage then 1 else 0 := by
  rw [asked, List.countP_cons]
  exact congrArg (_ + ·) (if_congr decide_eq_true_iff rfl rfl)

theorem asked_concat (f : ClientFrame) (fs : List ClientFrame) :
    asked (fs ++ [f]) = asked fs + if f.IsMessage then 1 else 0 := by
  rw [asked, List.countP_append]
  exact (congrArg (_ + ·) (asked_cons f [])).trans (congrArg (_ + ·) (Nat.zero_add _))

/-- How many terminal frames there are. -/
def terminals (fs : List ServerFrame) : ℕ := fs.countP (·.IsTerminal)

theorem terminals_cons (f : ServerFrame) (fs : List ServerFrame) :
    terminals (f :: fs) = terminals fs + if f.IsTerminal then 1 else 0 := by
  rw [terminals, List.countP_cons]
  exact congrArg (_ + ·) (if_congr decide_eq_true_iff rfl rfl)

@[simp] theorem terminals_append (fs gs : List ServerFrame) :
    terminals (fs ++ gs) = terminals fs + terminals gs := List.countP_append

namespace StreamPhase

/-- How many terminal frames a task in a phase has yet to send. -/
def owed : StreamPhase → ℕ
  | created | awaiting _ | sendingChunk _ => 1
  | sendingDone _ _ | sendingError | finished _ => 0

/-- The task is suspended in sending a terminal frame. -/
def SendsTerminal : StreamPhase → Prop
  | sendingDone _ _ | sendingError => True
  | _ => False

/-- A task that has sent a `DoneFrame` has no other entry to tell of, and its `send_text`
raises nothing that an `ErrorFrame` would tell of. -/
def EndsOnce : StreamPhase → StreamInput → Prop
  | sendingDone _ rest, .sent => rest = []
  | sendingDone _ _, .sendFails e => e.Handled → e = .cancelledError
  | _, _ => True

end StreamPhase

/-! ## What a turn sends to tell of its end -/

namespace StreamTask

theorem owed_onException_le (e : PyExc) :
    (onException e).1.owed + terminals (frames (onException e).2) ≤ 1 := by
  cases e with
  | authenticationError message | anyLlmError message => exact le_rfl
  | _ => exact Nat.zero_le 1

theorem owed_onException_eq_zero {e : PyExc} (h : e.Handled → e = .cancelledError) :
    (onException e).1.owed + terminals (frames (onException e).2) = 0 := by
  cases e with
  | authenticationError message | anyLlmError message => cases h trivial
  | _ => rfl

section

variable [SessionCodec] {a : SessionFileAdapter} {t t' : FileTree} {s s' : Session}
  {faults : List (Option FileTree.Fault)}

theorem owed_onReturn_le :
    (onReturn a t s faults).2.1.owed + terminals (frames (onReturn a t s faults).2.2) ≤ 1 := by
  rw [onReturn]
  split
  · exact Nat.zero_le 1
  · exact owed_onException_le _

theorem owed_onReturn_eq_zero
    (hdump : ∀ (m : OutputModel) (e : PyExc), ConfigCodec.dumpModel m = .error e → ¬ e.Handled) :
    (onReturn a t s faults).2.1.owed + terminals (frames (onReturn a t s faults).2.2) = 0 := by
  rw [onReturn]
  split
  · rfl
  · rename_i t' e hupdate
    apply owed_onException_eq_zero
    intro hhandled
    exact absurd hhandled (SessionFileAdapter.not_handled_of_updateSession hdump hupdate)

theorem owed_sendDone_le (event : SessionCompletionDoneEvent)
    (rest : List (String × String × ModelStats)) :
    (sendDone a t s faults event rest).2.1.owed +
      terminals (frames (sendDone a t s faults event rest).2.2) ≤ 1 := by
  cases rest with
  | nil => exact owed_onReturn_le
  | cons entry rest =>
      rw [sendDone]
      split
      · rename_i frame _
        exact (Nat.zero_add _).trans_le List.countP_le_length
      · exact owed_onException_le _

theorem owed_consume_le (phase : Option Session.Phase) (ob : Option Session.Obs) :
    (consume a t s faults phase ob).2.1.owed +
      terminals (frames (consume a t s faults phase ob).2.2) ≤ 1 := by
  cases phase with
  | none =>
      cases ob with
      | none => exact owed_onReturn_le
      | some ob =>
          cases ob with
          | raised e => exact owed_onException_le e
          | _ => exact owed_onReturn_le
  | some phase =>
      cases ob with
      | none => exact le_rfl
      | some ob =>
          cases ob with
          | yielded event =>
              cases event with
              | textChunk text => exact le_rfl
              | completionDone event => exact owed_sendDone_le event _
          | _ => exact le_rfl

variable [UnicodeData] {o : List StreamObs}

theorem owed_advance_le {phase : Option Session.Phase} {i : Session.Input} {phase' : StreamPhase}
    (hs : advance a t s faults phase i = some ((t', s', phase'), o)) :
    phase'.owed + terminals (frames o) ≤ 1 := by
  obtain ⟨⟨⟨s₁, p₁⟩, o₁⟩, -, heq⟩ := Option.map_eq_some_iff.mp hs
  cases heq
  exact owed_consume_le p₁ o₁.getLast?

theorem owed_stepPhase
    (hdump : ∀ (m : OutputModel) (e : PyExc), ConfigCodec.dumpModel m = .error e → ¬ e.Handled)
    {content : String} {phase phase' : StreamPhase} {i : StreamInput}
    (hs : stepPhase a t s faults content phase i = some ((t', s', phase'), o))
    (honce : phase.EndsOnce i) : phase'.owed + terminals (frames o) ≤ phase.owed := by
  cases phase with
  | created =>
      cases i with
      | runs uuid4 => exact owed_advance_le hs
      | _ => cases hs
  | awaiting phase =>
      cases i with
      | resumes i => exact owed_advance_le hs
      | _ => cases hs
  | sendingChunk phase =>
      cases i with
      | sent => exact owed_advance_le hs
      | sendFails e =>
          cases hs
          exact owed_onException_le e
      | _ => cases hs
  | sendingDone event rest =>
      cases i with
      | sent =>
          rw [show rest = [] from honce] at hs
          cases hs
          exact (owed_onReturn_eq_zero hdump).le
      | sendFails e =>
          cases hs
          exact (owed_onException_eq_zero honce).le
      | _ => cases hs
  | sendingError =>
      cases i with
      | sent | sendFails e =>
          cases hs
          exact le_rfl
      | _ => cases hs
  | finished result => cases i <;> cases hs

/-- **One step** of a task sends no more terminal frames than it owed. -/
theorem owed_step
    (hdump : ∀ (m : OutputModel) (e : PyExc), ConfigCodec.dumpModel m = .error e → ¬ e.Handled)
    {task task' : StreamTask} {i : StreamInput}
    (hs : task.step a t s faults i = some ((t', s', task'), o)) (honce : task.phase.EndsOnce i) :
    task'.phase.owed + terminals (frames o) ≤ task.phase.owed := by
  obtain ⟨⟨⟨t₁, s₁, phase'⟩, o₁⟩, hnext, heq⟩ := Option.map_eq_some_iff.mp hs
  cases heq
  split at hnext
  · split at hnext
    · generalize task.phase = phase at hnext ⊢
      cases phase with
      | awaiting phase => exact owed_advance_le hnext
      | finished result => cases hnext
      | _ =>
          cases hnext
          exact Nat.zero_le _
    · cases hnext
  · exact owed_stepPhase hdump hnext honce

end

end StreamTask

/-! ## The client -/

/-- A client, the loop and the tasks that serve it, and the frames under way. -/
structure Chat where
  server : WsHandler.State
  streaming : Bool := false
  toServer : List ClientFrame := []
  toClient : List ServerFrame := []

namespace Chat

/-- A client whose connection has just been accepted. -/
def start (t : FileTree) (s : Session) : Chat where
  server := { WsHandler.State.init t s with
    sc := { session := s, ws := some 0 }
    handlers := [.receiving] }

/-- What the client and the server do. -/
inductive Input where
  /-- The client sends a frame. -/
  | sends (frame : ClientFrame)
  /-- The next frame reaches the client. -/
  | receives
  /-- `receive_text` returns the next frame of the client. -/
  | takes
  /-- Anything else that happens to the handler or a task. -/
  | server (i : WsHandler.Input)

/-- What can be observed. -/
inductive Obs where
  /-- `receive_text` returned a frame. -/
  | took (frame : ClientFrame)
  | server (o : WsHandler.Obs)
deriving DecidableEq

/-- The frame a server sends, if it does. -/
def sent? : WsHandler.Obs → Option ServerFrame
  | .stream _ (.sends frame) => some frame
  | .replies _ frame => some frame
  | _ => none

/-- The server has gone on, and what it sent is under way. -/
def push (c : Chat) : WsHandler.State × List WsHandler.Obs → Chat × List Obs
  | (w, o) => ({ c with server := w, toClient := c.toClient ++ o.filterMap sent? }, o.map .server)

/-- A frame of the client goes through `takes` alone, and no other client connects. -/
def Internal : WsHandler.Input → Prop
  | .connects | .handler _ (.receives _) => False
  | _ => True

instance : DecidablePred Internal := fun i ↦
  match i with
  | .connects | .handler _ (.receives _) => isFalse id
  | .handler _ .accepted | .handler _ .acceptFails | .handler _ .closed | .handler _ .replied
  | .handler _ .disconnects | .handler _ .joined | .stream .. => isTrue trivial

section

variable [UnicodeData] [SessionCodec]

/-- One step. -/
def step (a : SessionFileAdapter) (c : Chat) : Input → Option (Chat × List Obs)
  | .sends frame =>
      if frame.IsMessage then
        if c.streaming then none
        else some ({ c with streaming := true, toServer := c.toServer ++ [frame] }, [])
      else some ({ c with toServer := c.toServer ++ [frame] }, [])
  | .receives =>
      match c.toClient with
      | [] => none
      | frame :: rest =>
          let streaming := if frame.IsTerminal then false else c.streaming
          some ({ c with streaming, toClient := rest }, [])
  | .takes =>
      match c.toServer with
      | [] => none
      | frame :: rest =>
          (WsHandler.step a c.server (.handler 0 (.receives (some frame)))).map fun r ↦
            let (c, o) := { c with toServer := rest }.push r
            (c, .took frame :: o)
  | .server i => if Internal i then (WsHandler.step a c.server i).map c.push else none

/-- The machine of one client and the server. -/
def machine (a : SessionFileAdapter) : Mealy Chat Input Obs := ⟨step a⟩

end

/-! ## The balance -/

/-- What the tasks of a server owe. -/
def owedBy (w : WsHandler.State) : ℕ := (w.tasks.map (·.phase.owed)).sum

/-- The messages on their way, the ends the tasks have yet to tell, and the terminal frames
on their way back. -/
def debt (c : Chat) : ℕ := asked c.toServer + owedBy c.server + terminals c.toClient

/-- They are at most one, and none if the client is not streaming. -/
def Balanced (c : Chat) : Prop := c.debt ≤ c.streaming.toNat

/-- The loop does not take a message while a task is suspended in sending a terminal
frame, and no task sends two of them. -/
def AfterTheEnd (c : Chat) : Input → Prop
  | .takes => ∀ content rest, c.toServer = .sendMessage content :: rest →
      ∀ task ∈ c.server.tasks, ¬ task.phase.SendsTerminal
  | .server (.stream n i _) => ∀ task : StreamTask, c.server.tasks[n]? = some task →
      task.phase.EndsOnce i
  | _ => True

/-- The texts of the messages the loop took. -/
def messages (o : List Obs) : List String :=
  o.filterMap fun
    | .took (.sendMessage content) => some content
    | _ => none

@[simp] theorem messages_append (o o' : List Obs) :
    messages (o ++ o') = messages o ++ messages o' := List.filterMap_append

theorem messages_map_server (o : List WsHandler.Obs) : messages (o.map .server) = [] := by
  rw [messages, List.filterMap_map]
  exact List.filterMap_none o

/-- Whether the loop refuses a message. -/
def Refuses : Obs → Prop
  | .server (.replies _ (.error code _)) => code = "stream_in_progress"
  | _ => False

theorem owedBy_cancelTask (w : WsHandler.State) (n : ℕ) : owedBy (w.cancelTask n) = owedBy w := by
  refine congrArg List.sum (List.ext_getElem? fun m ↦ ?_)
  have hphase := congrArg (Option.map StreamPhase.owed) (w.phase?_cancelTask n m)
  rw [List.getElem?_map, List.getElem?_map]
  rwa [WsHandler.State.phase?, WsHandler.State.phase?, Option.map_map, Option.map_map] at hphase

theorem contents_cancelTask (w : WsHandler.State) (n : ℕ) :
    (w.cancelTask n).tasks.map (·.content) = w.tasks.map (·.content) := by
  refine List.ext_getElem? fun m ↦ ?_
  rw [List.getElem?_map, List.getElem?_map, WsHandler.State.cancelTask, List.getElem?_modify]
  cases w.tasks[m]? with
  | none => rfl
  | some task =>
      refine congrArg some ?_
      show (if n = m then task.cancel else task).content = task.content
      split
      · unfold StreamTask.cancel
        split <;> rfl
      · rfl

theorem owedBy_addTask (w : WsHandler.State) (h : ℕ) (content : String) :
    owedBy (w.addTask h content) = owedBy w + 1 := by
  rw [owedBy, WsHandler.State.addTask, List.map_append, List.sum_append]
  rfl

theorem sum_set_add_le {l : List ℕ} {n x y k : ℕ} (hx : l[n]? = some x) (h : y + k ≤ x) :
    (l.set n y).sum + k ≤ l.sum := by
  induction l generalizing n with
  | nil => cases hx
  | cons z l ih =>
      cases n with
      | zero =>
          cases hx
          rw [List.set_cons_zero, List.sum_cons, List.sum_cons]
          omega
      | succ n =>
          have hrest := ih hx
          rw [List.set_cons_succ, List.sum_cons, List.sum_cons]
          omega

theorem filterMap_sent?_stream (n : ℕ) (o : List StreamObs) :
    (o.map (WsHandler.Obs.stream n)).filterMap sent? = frames o := by
  rw [List.filterMap_map, frames]
  refine List.filterMap_congr fun ob _ ↦ ?_
  cases ob <;> rfl

theorem not_refuses_map {o : List WsHandler.Obs} (h : ∀ ob ∈ o, ¬ Refuses (.server ob)) :
    ∀ ob ∈ o.map .server, ¬ Refuses ob := by
  intro ob hob
  obtain ⟨ob', hob', rfl⟩ := List.mem_map.mp hob
  exact h ob' hob'

theorem not_refuses_stream (n : ℕ) (o : List StreamObs) :
    ∀ ob ∈ o.map (WsHandler.Obs.stream n), ¬ Refuses (.server ob) := by
  intro ob hob
  obtain ⟨ob', -, rfl⟩ := List.mem_map.mp hob
  exact id

/-- When nothing is owed and no task is suspended in telling of its end, all are done. -/
theorem busy?_eq_none {w : WsHandler.State} (howed : owedBy w = 0)
    (hsends : ∀ task ∈ w.tasks, ¬ task.phase.SendsTerminal) : w.busy? = none := by
  cases hbusy : w.busy? with
  | none => rfl
  | some n =>
      obtain ⟨-, task, htask, hdone⟩ := WsHandler.State.busy?_eq_some.mp hbusy
      have hmem := List.mem_of_getElem? htask
      have hzero : task.phase.owed = 0 :=
        List.sum_eq_zero_iff_forall_eq_nat.mp howed _ (List.mem_map_of_mem hmem)
      have hnot := hsends task hmem
      rw [StreamTask.isDone] at hdone
      generalize task.phase = phase at hzero hnot hdone
      cases phase with
      | created | awaiting phase | sendingChunk phase => cases hzero
      | sendingDone event rest => exact absurd trivial hnot
      | sendingError => exact absurd trivial hnot
      | finished result => cases hdone

section

variable [UnicodeData] [SessionCodec] {a : SessionFileAdapter} {c c' : Chat}
  {w w' : WsHandler.State} {o : List Obs}

/-- What the server does by itself sends no more terminal frames than it owes, refuses
nothing, and makes no task. -/
theorem internal_step
    (hdump : ∀ (m : OutputModel) (e : PyExc), ConfigCodec.dumpModel m = .error e → ¬ e.Handled)
    {i : WsHandler.Input} {o : List WsHandler.Obs} (hs : WsHandler.Step a w i w' o)
    (hi : Internal i)
    (honce : ∀ n i' faults (task : StreamTask), i = .stream n i' faults →
      w.tasks[n]? = some task → task.phase.EndsOnce i') :
    owedBy w' + terminals (o.filterMap sent?) ≤ owedBy w ∧
      (∀ ob ∈ o, ¬ Refuses (.server ob)) ∧
        w'.tasks.map (·.content) = w.tasks.map (·.content) := by
  cases hs with
  | connects | connectsTaken | malformed | ping | cancel | cancelNothing | refuseMessage
  | sendMessage => exact absurd hi id
  | enters h hh => exact ⟨le_rfl, List.forall_mem_nil _, rfl⟩
  | refuses h hh =>
      refine ⟨le_rfl, fun ob hob ↦ ?_, rfl⟩
      rw [List.mem_singleton.mp hob]
      exact id
  | acceptFails h phase hh hphase => exact ⟨le_rfl, List.forall_mem_nil _, rfl⟩
  | closed h hh => exact ⟨le_rfl, List.forall_mem_nil _, rfl⟩
  | replied h hh => exact ⟨le_rfl, List.forall_mem_nil _, rfl⟩
  | leaves h n phase hh hphase busy =>
      exact ⟨(owedBy_cancelTask w n).le, List.forall_mem_nil _, contents_cancelTask w n⟩
  | leavesIdle h phase hh hphase idle => exact ⟨le_rfl, List.forall_mem_nil _, rfl⟩
  | joined h n task hh htask hdone => exact ⟨le_rfl, List.forall_mem_nil _, rfl⟩
  | stream n i faults task task' tree session o htask hstep =>
      refine ⟨?_, not_refuses_stream n o, ?_⟩
      · have hone := owed_step hdump hstep (honce n i faults task rfl htask)
        rw [filterMap_sent?_stream, owedBy, owedBy, List.map_set]
        refine sum_set_add_le ?_ hone
        rw [List.getElem?_map, htask]
        rfl
      · have hcontent : task'.content = task.content := by
          obtain ⟨r, -, heq⟩ := Option.map_eq_some_iff.mp hstep
          cases heq
          rfl
        refine List.ext_getElem? fun m ↦ ?_
        rw [List.getElem?_map, List.getElem?_map, List.getElem?_set]
        split
        · rename_i heq
          subst heq
          rw [htask, if_pos (List.getElem?_eq_some_iff.mp htask).1]
          exact congrArg some hcontent
        · rfl

/-- The loop takes a frame of a client in balance after the end of every turn: a message
starts a turn. -/
theorem takes_step {frame : ClientFrame} {rest : List ClientFrame} {o : List WsHandler.Obs}
    (hs : WsHandler.Step a c.server (.handler 0 (.receives (some frame))) w' o)
    (hbalanced : c.Balanced) (hqueue : c.toServer = frame :: rest)
    (hafter : c.AfterTheEnd .takes) :
    owedBy w' + terminals (o.filterMap sent?) ≤
        owedBy c.server + (if frame.IsMessage then 1 else 0) ∧
      (∀ ob ∈ o, ¬ Refuses (.server ob)) ∧
        w'.tasks.map (·.content) =
          c.server.tasks.map (·.content) ++ messages [.took frame] := by
  cases hs with
  | ping h hh =>
      refine ⟨le_rfl, fun ob hob ↦ ?_, (List.append_nil _).symm⟩
      rw [List.mem_singleton.mp hob]
      exact id
  | cancel h n hh busy =>
      refine ⟨(owedBy_cancelTask _ n).le, List.forall_mem_nil _, ?_⟩
      exact (contents_cancelTask _ n).trans (List.append_nil _).symm
  | cancelNothing h hh idle => exact ⟨le_rfl, List.forall_mem_nil _, (List.append_nil _).symm⟩
  | refuseMessage h n content hh busy =>
      -- the message itself is what the client is streaming for, so nothing else is owed
      have hdebt : asked c.toServer + owedBy c.server + terminals c.toClient ≤ 1 :=
        hbalanced.trans (Bool.toNat_le _)
      have hmessage : (ClientFrame.sendMessage content).IsMessage := trivial
      rw [hqueue, asked_cons, if_pos hmessage] at hdebt
      have hidle := busy?_eq_none (by omega) (hafter content rest hqueue)
      cases hidle.symm.trans busy
  | sendMessage h content hh idle =>
      exact ⟨(owedBy_addTask _ 0 content).le, List.forall_mem_nil _, List.map_append ..⟩

/-- **One step** under the condition keeps the balance, refuses nothing, and starts a turn
for every message it takes. -/
theorem balanced_step
    (hdump : ∀ (m : OutputModel) (e : PyExc), ConfigCodec.dumpModel m = .error e → ¬ e.Handled)
    {i : Input} (hs : step a c i = some (c', o)) (hbalanced : c.Balanced)
    (hafter : c.AfterTheEnd i) :
    c'.Balanced ∧ (∀ ob ∈ o, ¬ Refuses ob) ∧
      c'.server.tasks.map (·.content) = c.server.tasks.map (·.content) ++ messages o := by
  have hdebt : asked c.toServer + owedBy c.server + terminals c.toClient ≤ c.streaming.toNat :=
    hbalanced
  cases i with
  | sends frame =>
      simp only [step] at hs
      split at hs
      · rename_i hmessage
        split at hs
        · cases hs
        · rename_i hstreaming
          cases hs
          refine ⟨?_, List.forall_mem_nil _, (List.append_nil _).symm⟩
          rw [Bool.eq_false_of_not_eq_true hstreaming, Bool.toNat_false] at hdebt
          show asked (c.toServer ++ [frame]) + owedBy c.server + terminals c.toClient ≤ 1
          rw [asked_concat, if_pos hmessage]
          omega
      · rename_i hmessage
        cases hs
        refine ⟨?_, List.forall_mem_nil _, (List.append_nil _).symm⟩
        show asked (c.toServer ++ [frame]) + owedBy c.server + terminals c.toClient ≤ _
        rw [asked_concat, if_neg hmessage]
        exact hdebt
  | receives =>
      simp only [step] at hs
      split at hs
      · cases hs
      · rename_i frame rest hqueue
        cases hs
        refine ⟨?_, List.forall_mem_nil _, (List.append_nil _).symm⟩
        rw [hqueue, terminals_cons] at hdebt
        have hle := Bool.toNat_le c.streaming
        show asked c.toServer + owedBy c.server + terminals rest ≤
          (if frame.IsTerminal then false else c.streaming).toNat
        split
        · rename_i hterminal
          rw [if_pos hterminal] at hdebt
          rw [Bool.toNat_false]
          omega
        · omega
  | takes =>
      simp only [step] at hs
      split at hs
      · cases hs
      · rename_i frame rest hqueue
        obtain ⟨⟨w', o'⟩, hstep, heq⟩ := Option.map_eq_some_iff.mp hs
        obtain ⟨howed, hrefuses, hcontents⟩ :=
          takes_step (.of_step hstep) hbalanced hqueue hafter
        cases heq
        refine ⟨?_, ?_, ?_⟩
        · rw [hqueue, asked_cons] at hdebt
          show asked rest + owedBy w' + terminals (c.toClient ++ o'.filterMap sent?) ≤ _
          rw [terminals_append]
          show _ ≤ c.streaming.toNat
          omega
        · intro ob hob
          rcases List.mem_cons.mp hob with rfl | hob
          · exact id
          · exact not_refuses_map hrefuses ob hob
        · have hmessages : messages (.took frame :: o'.map .server) =
              messages [.took frame] ++ messages (o'.map .server) := messages_append [_] _
          rw [messages_map_server, List.append_nil] at hmessages
          exact hcontents.trans (congrArg (_ ++ ·) hmessages.symm)
  | server i =>
      simp only [step] at hs
      split at hs
      · rename_i hi
        obtain ⟨⟨w', o'⟩, hstep, heq⟩ := Option.map_eq_some_iff.mp hs
        have honce : ∀ n i' faults (task : StreamTask), i = .stream n i' faults →
            c.server.tasks[n]? = some task → task.phase.EndsOnce i' := by
          rintro n i' faults task rfl htask
          exact hafter task htask
        obtain ⟨howed, hrefuses, hcontents⟩ := internal_step hdump (.of_step hstep) hi honce
        cases heq
        refine ⟨?_, ?_, ?_⟩
        · show asked c.toServer + owedBy w' + terminals (c.toClient ++ o'.filterMap sent?) ≤
            c.streaming.toNat
          rw [terminals_append]
          omega
        · exact not_refuses_map hrefuses
        · rw [messages_map_server, List.append_nil]
          exact hcontents
      · cases hs

/-- In every run in which the loop takes no message while a task is suspended in sending a
terminal frame, and no task sends two of them, the loop refuses no message, and starts a
turn for every one it takes. -/
theorem unrefused_of_run {t : FileTree} {s : Session} {is : List Input}
    (hdump : ∀ (m : OutputModel) (e : PyExc), ConfigCodec.dumpModel m = .error e → ¬ e.Handled)
    (h : (machine a).run (.start t s) is = some (c, o))
    (hafter : (machine a).StepsMeet AfterTheEnd (.start t s) is) :
    (∀ ob ∈ o, ¬ Refuses ob) ∧ c.server.tasks.map (·.content) = messages o := by
  have hall : c.Balanced ∧ (∀ ob ∈ o, ¬ Refuses ob) ∧
      c.server.tasks.map (·.content) = messages o := by
    refine Mealy.run_induction_of_steps (P := fun _ c o ↦ c.Balanced ∧ (∀ ob ∈ o, ¬ Refuses ob) ∧
      c.server.tasks.map (·.content) = messages o) (Q := AfterTheEnd) ?_ ?_ h hafter
    · exact ⟨le_rfl, List.forall_mem_nil _, rfl⟩
    · rintro _ c o i c' o' ⟨hbalanced, hrefuses, hcontents⟩ hi hs
      obtain ⟨hbalanced', hrefuses', hcontents'⟩ := balanced_step hdump hs hbalanced hi
      refine ⟨hbalanced', fun ob hob ↦ ?_, ?_⟩
      · rcases List.mem_append.mp hob with hob | hob
        · exact hrefuses ob hob
        · exact hrefuses' ob hob
      · rw [hcontents', hcontents, messages_append]
  exact hall.2

end

/-! ## Runs to evaluate -/

/-- The machine over the sample store. -/
def sampleMachine : Mealy Chat Input Obs := @machine .asciiOnly App.sampleCodec .sampleStore

/-- A client of the sample session. -/
def sampleStart : Chat := .start App.sampleTree App.sampleSession

/-- A first message, and the turn for it up to the call that sends its end. -/
def sampleFirst (i : List Session.Input) : List Input :=
  [.sends (.sendMessage "hi"), .takes, .server (.stream 0 (.runs (.ofNat 1)) [])] ++
    i.map fun i ↦ .server (.stream 0 (.resumes i) [])

/-- A second message, sent on what was heard of the first. -/
def sampleSecond : List Input := [.receives, .sends (.sendMessage "more"), .takes]

/-- The first turn fails, and is done before the second message arrives. -/
def sampleTurns : List Input :=
  sampleFirst [.raises (.anyLlmError "overloaded")] ++ [.server (.stream 0 .sent [])] ++
    sampleSecond

theorem afterTheEnd_sampleTurns : sampleMachine.StepsMeet AfterTheEnd sampleStart sampleTurns := by
  refine .cons rfl trivial ?_
  refine .cons rfl ?_ ?_
  · exact fun content rest _ ↦ List.forall_mem_nil _
  refine .cons rfl ?_ ?_
  · rintro task ⟨⟩
    trivial
  refine .cons rfl ?_ ?_
  · rintro task ⟨⟩
    trivial
  refine .cons rfl ?_ ?_
  · rintro task ⟨⟩
    trivial
  refine .cons rfl trivial ?_
  refine .cons rfl trivial ?_
  refine .cons rfl ?_ .nil
  rintro content rest - task htask
  rw [List.mem_singleton.mp htask]
  exact id

/-- Both messages have started a turn. -/
theorem unrefused_sampleTurns : ∃ c o, sampleMachine.run sampleStart sampleTurns = some (c, o) ∧
    (∀ ob ∈ o, ¬ Refuses ob) ∧ c.server.tasks.map (·.content) = ["hi", "more"] := by
  obtain ⟨⟨c, o⟩, hrun, heval⟩ := Option.map_eq_some_iff.mp
    (show (sampleMachine.run sampleStart sampleTurns).map (fun r ↦ messages r.2) =
      some ["hi", "more"] from rfl)
  have hmessages : messages o = ["hi", "more"] := heval
  obtain ⟨hrefuses, hcontents⟩ := @unrefused_of_run .asciiOnly App.sampleCodec .sampleStore c o
    App.sampleTree App.sampleSession sampleTurns nofun hrun afterTheEnd_sampleTurns
  exact ⟨c, o, hrun, hrefuses, hcontents.trans hmessages⟩

/-- The client has the `DoneFrame` of its first message, and sends the next; the task is
still suspended in the call that sent the frame, and the message is refused. -/
theorem refused_after_done : ∃ c o, sampleMachine.run sampleStart
    (sampleFirst [.event (.completionDone ⟨"p", "m", ⟨1, 2⟩, .stop, 0⟩), .mainEnds (.ofNat 2) 0] ++
      sampleSecond) = some (c, o) ∧
    .server (.replies 0 (.error "stream_in_progress" "A stream is already in progress.")) ∈ o ∧
      c.server.tasks.map (·.content) = ["hi"] ∧ messages o = ["hi", "more"] := by
  obtain ⟨⟨c, o⟩, hrun, heval⟩ := Option.map_eq_some_iff.mp
    (show (sampleMachine.run sampleStart (sampleFirst [.event
        (.completionDone ⟨"p", "m", ⟨1, 2⟩, .stop, 0⟩), .mainEnds (.ofNat 2) 0] ++
          sampleSecond)).map (fun r ↦
      (r.2.getLast?, r.1.server.tasks.map (·.content), messages r.2)) =
        some (some (.server (.replies 0
          (.error "stream_in_progress" "A stream is already in progress."))), ["hi"],
          ["hi", "more"]) from rfl)
  obtain ⟨hlast, hrest⟩ := Prod.mk.inj heval
  obtain ⟨hcontents, hmessages⟩ := Prod.mk.inj hrest
  exact ⟨c, o, hrun, List.mem_of_getLast? hlast, hcontents, hmessages⟩

end Chat
