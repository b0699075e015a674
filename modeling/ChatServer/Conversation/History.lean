import ChatServer.Domain.SessionStep

/-!
# The history of a session, call by call

`Session.acompletion` records the prompt when a call starts and the answer when
the stream of the main LLM has ended.  Between the two the call can end early,
and nothing takes the prompt back: the history is append-only.

`answered` reads off the inputs of a run, for each call in order, whether its
main stream ended.  The history then consists of one question and answer for
each answered call and of a lone question for each other one
(`roles_of_run`), so it alternates exactly when every call was answered.
-/

/-- The role of a record. -/
def MessageRecord.role (r : MessageRecord) : Option String := r.message.get? "role"

namespace Session

/-- The roles of the history, oldest first. -/
def roles (s : Session) : List (Option String) := s.messages.map (·.role)

/-- An even number of roles: user, assistant, user, assistant, ... -/
def Alternate (roles : List (Option String)) : Prop :=
  Even roles.length ∧
    ∀ i < roles.length, roles[i]? = some (some (if Even i then "user" else "assistant"))

instance (roles : List (Option String)) : Decidable (Alternate roles) :=
  inferInstanceAs (Decidable (_ ∧ _))

/-- What one input says about the calls so far: a new call is unanswered, and the
end of the main stream answers the latest one. -/
def answeredStep (calls : List Bool) : Input → List Bool
  | .acompletion _ _ _ => calls ++ [false]
  | .mainEnds _ _ => calls.dropLast ++ [true]
  | _ => calls

/-- For each call of a run, in order, whether the stream of its main LLM ended. -/
def answered (inputs : List Input) : List Bool := inputs.foldl answeredStep []

/-- The roles one call leaves behind. -/
def callRoles (isAnswered : Bool) : List (Option String) :=
  if isAnswered then [some "user", some "assistant"] else [some "user"]

@[simp] theorem answered_concat (inputs : List Input) (i : Input) :
    answered (inputs ++ [i]) = answeredStep (answered inputs) i := by
  simp [answered]

/-! ## Alternation -/

theorem alternate_answer_cons {roles : List (Option String)} :
    Alternate (some "user" :: some "assistant" :: roles) ↔ Alternate roles := by
  constructor
  · rintro ⟨hlen, h⟩
    refine ⟨by simpa [Nat.even_add_one] using hlen, fun i hi ↦ ?_⟩
    simpa [Nat.even_add_one] using h (i + 2) (by simpa using hi)
  · rintro ⟨hlen, h⟩
    refine ⟨by simpa [Nat.even_add_one] using hlen, fun i hi ↦ ?_⟩
    match i with
    | 0 => rfl
    | 1 => rfl
    | i + 2 => simpa [Nat.even_add_one] using h i (by simpa using hi)

/-- A lone question breaks the alternation, whatever calls follow it. -/
theorem not_alternate_user_cons (calls : List Bool) :
    ¬ Alternate (some "user" :: calls.flatMap callRoles) := by
  rintro ⟨hlen, h⟩
  cases calls with
  | nil => exact absurd hlen (by decide)
  | cons b calls =>
      have h₁ := h 1 (by cases b <;> simp [callRoles])
      cases b <;> exact absurd h₁ (by simp [callRoles])

/-- A history made of calls alternates when all of them are answered. -/
theorem alternate_flatMap_iff (calls : List Bool) :
    Alternate (calls.flatMap callRoles) ↔ ∀ b ∈ calls, b = true := by
  induction calls with
  | nil => exact ⟨fun _ _ hb ↦ absurd hb List.not_mem_nil, fun _ ↦ by decide⟩
  | cons b calls ih =>
      rw [List.flatMap_cons, List.forall_mem_cons]
      cases b with
      | true =>
          rw [← ih]
          exact alternate_answer_cons.trans (and_iff_right rfl).symm
      | false =>
          exact ⟨fun h ↦ absurd h (not_alternate_user_cons calls), fun h ↦ absurd h.1 (by decide)⟩

/-! ## Runs -/

section

variable [UnicodeData]

/-- A call is under way and its answer is not recorded yet. -/
def AwaitsAnswer : Option Phase → Prop
  | some (.main _ _) => True
  | some (.chunk _ _) => True
  | _ => False

/-- A step appends the roles of the records its input draws. -/
theorem Step.roles {c c' : Session × Option Phase} {i : Input} {o : List Obs}
    (h : Step c i c' o) : c'.1.roles = c.1.roles ++ i.draws.map fun d ↦ some d.1 := by
  obtain ⟨content, hm⟩ := h.messages
  simp [Session.roles, hm, MessageRecord.role]

/-- What links a run to its calls: the history is theirs, and while a call awaits
its answer it is the latest and unanswered. -/
structure Recorded (before : List (Option String)) (inputs : List Input)
    (c : Session × Option Phase) : Prop where
  roles : c.1.roles = before ++ (answered inputs).flatMap callRoles
  awaits : AwaitsAnswer c.2 → (answered inputs).getLast? = some false

theorem Recorded.step {before : List (Option String)} {inputs : List Input}
    {c c' : Session × Option Phase} {i : Input} {o : List Obs}
    (hr : Recorded before inputs c) (h : Step c i c' o) : Recorded before (inputs ++ [i]) c' := by
  have hroles := h.roles
  -- the answer of a call whose main stream ends replaces its open entry
  have hanswer : ∀ {uuid4 elapsedS}, i = .mainEnds uuid4 elapsedS → AwaitsAnswer c.2 →
      c'.1.roles = before ++ (answered (inputs ++ [i])).flatMap callRoles := by
    rintro uuid4 elapsedS rfl hawaits
    obtain ⟨calls, hcalls⟩ := List.getLast?_eq_some_iff.mp (hr.awaits hawaits)
    rw [hroles, hr.roles, answered_concat, answeredStep, hcalls, List.dropLast_concat]
    simp [callRoles, Input.draws]
  cases h with
  | acompletion s prompt stream uuid4 =>
      refine ⟨?_, fun _ ↦ ?_⟩
      · rw [hroles, hr.roles, answered_concat, answeredStep, List.flatMap_append]
        simp [callRoles, Input.draws]
      · rw [answered_concat, answeredStep, List.getLast?_concat]
  | mainEndsFails | mainEnds | mainEndsSummary =>
      exact ⟨hanswer rfl trivial, False.elim⟩
  | ends s p i ob h =>
      cases h <;>
        exact ⟨by rw [answered_concat]; exact hr.roles, False.elim⟩
  | mainText | mainDone | chunkNext =>
      exact ⟨by rw [answered_concat, hroles, hr.roles]; simp [Input.draws, answeredStep],
        fun _ ↦ by rw [answered_concat]; exact hr.awaits trivial⟩
  | _ =>
      exact ⟨by rw [answered_concat, hroles, hr.roles]; simp [Input.draws, answeredStep],
        False.elim⟩

/-- A run that can be evaluated to its last phase. -/
theorem exists_run_of_idle {c : Session × Option Phase} {inputs : List Input}
    (h : (machine.run c inputs).map (·.1.2) = some none) :
    ∃ s' o, machine.run c inputs = some ((s', none), o) := by
  obtain ⟨⟨⟨s', p⟩, o⟩, hrun, hp⟩ := Option.map_eq_some_iff.mp h
  obtain rfl : p = none := hp
  exact ⟨s', o, hrun⟩

/-- Along every run from an idle session the history grows by the calls made. -/
theorem roles_of_run {s : Session} {c : Session × Option Phase} {inputs : List Input}
    {o : List Obs} (h : machine.run (s, none) inputs = some (c, o)) :
    c.1.roles = s.roles ++ (answered inputs).flatMap callRoles := by
  refine (Mealy.run_induction (P := fun inputs c _ ↦ Recorded s.roles inputs c)
    ⟨by simp [answered], False.elim⟩ ?_ h).roles
  intro inputs c _ i c' o' hr hs
  exact hr.step (.of_step hs)

end

/-- A dummy session to evaluate runs with. -/
def sampleDummy : Session :=
  init (.port "main") "s" ⟨0⟩ .sample none ⟨0⟩ (.init none)
    (.dummy ⟨⟨.decorated (.port "summariser") ⟨0⟩ none, .sample, []⟩⟩)

/-- A call whose main LLM raises at once leaves a lone question. -/
theorem question_left_unanswered :
    create (.port "main") "s" .sample none "dummy" ∅ (.port "summariser") .sample none
        ⟨0⟩ ⟨0⟩ = .ok sampleDummy ∧
      ∃ s' o, (@machine .asciiOnly).run (sampleDummy, none)
          [.acompletion "hi" true (.ofNat 1), .raises (.anyLlmError "overloaded")] =
            some ((s', none), o) ∧
        s'.roles = [some "user"] ∧ ¬ Alternate s'.roles := by
  refine ⟨rfl, _, _, rfl, rfl, ?_⟩
  rintro ⟨heven, -⟩
  exact absurd heven (by decide)

/-- Whenever a session that `Session.create` built is idle, its history is the
sequence of its calls, and it alternates exactly when each of them was answered. -/
theorem history_of_calls [UnicodeData] {llm : LlmPort} {id : String}
    {completionConfig : CompletionConfig} {billing : Option ModelBilling} {strategyType : String}
    {strategyMetadata : OrderedDict String Json} {strategyLlm : LlmPort}
    {strategyCompletionConfig : CompletionConfig} {strategyBilling : Option ModelBilling}
    {now : Datetime} {ref : StatsRef} {s s' : Session} {inputs : List Input} {o : List Obs}
    (hs : create llm id completionConfig billing strategyType strategyMetadata strategyLlm
      strategyCompletionConfig strategyBilling now ref = .ok s)
    (h : machine.run (s, none) inputs = some ((s', none), o)) :
    s'.roles = (answered inputs).flatMap callRoles ∧
      (Alternate s'.roles ↔ ∀ b ∈ answered inputs, b = true) := by
  have hroles : s'.roles = (answered inputs).flatMap callRoles := by
    rw [roles_of_run h, roles, messages_create hs]
    rfl
  refine ⟨hroles, ?_⟩
  rw [hroles]
  exact alternate_flatMap_iff _

/-- An answered call between two that end early. -/
def threeCalls : List Input :=
  [.acompletion "a" true (.ofNat 1), .cancelled,
    .acompletion "b" true (.ofNat 2), .event (.textChunk "t"), .next,
    .mainEnds (.ofNat 3) 0, .closed,
    .acompletion "c" true (.ofNat 4), .event (.textChunk "t"), .closed]

theorem history_of_calls_three :
    ∃ s' o, (@machine .asciiOnly).run (sampleDummy, none) threeCalls = some ((s', none), o) ∧
      s'.roles = [some "user", some "user", some "assistant", some "user"] ∧
        ¬ Alternate s'.roles := by
  obtain ⟨s', o, hrun⟩ := @exists_run_of_idle .asciiOnly (sampleDummy, none) threeCalls (by decide)
  obtain ⟨hroles, hiff⟩ := @history_of_calls .asciiOnly (.port "main") "s" .sample none
    "dummy" ∅ (.port "summariser") .sample none ⟨0⟩ ⟨0⟩ _ _ threeCalls _ rfl hrun
  exact ⟨s', o, hrun, hroles, fun h ↦ absurd (hiff.mp h) (by decide)⟩

end Session
