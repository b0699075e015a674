import ChatServer.Lib.Mealy
import ChatServer.Storage.Isolation
import ChatServer.Storage.Presence

/-!
# Creations that fail

`create_session` makes the directory of the session and then fills it.  The directory is
what `get_session_ids` lists and what the next `create_session` trips over, so a creation
that raises after the `mkdir` stays: it is listed, it cannot be loaded, and the identifier
is taken.  One that raises in the `mkdir`, or not at all, is as if it had not been tried
(`failed_creation`).
-/

open FileTree

namespace SessionFileAdapter

/-! ## What a failed creation leaves -/

section

variable [SessionCodec] {a : SessionFileAdapter} {t t' : FileTree} {s : Session}
  {faults : List (Option Fault)}

/-- A session can be stored, and loaded then, if nothing goes wrong. -/
def Storable (a : SessionFileAdapter) (t : FileTree) (s : Session) : Prop :=
  ∃ t₁ state, a.createSession t s [] = (t₁, .ok ()) ∧ a.getSession t₁ s.id = .ok state

/-- An identifier under which some session can be stored. -/
def Available (a : SessionFileAdapter) (t : FileTree) (id : String) : Prop :=
  ∃ s : Session, s.id = id ∧ a.Storable t s

/-- The second tree lists what the first does, and a session that could be stored under an
identifier still can be. -/
structure LeavesNoTrace (a : SessionFileAdapter) (t t' : FileTree) (id : String) : Prop where
  ids : a.getSessionIds t' = a.getSessionIds t
  storable : ∀ s : Session, s.id = id → a.Storable t s → a.Storable t' s

/-- After the `mkdir` of `create_session` nothing raises. -/
def WritesAll (a : SessionFileAdapter) (t : FileTree) (s : Session)
    (faults : List (Option Fault)) : Prop :=
  ∀ t₁, t.exec [.mkdir (a.sessionDir s.id)] faults = (t₁, none) →
    (writeSessionFiles t₁ (a.sessionDir s.id) s faults.tail).2 = .ok ()

/-- Where something is, no session can be created. -/
theorem not_storable_of_node {q : List String} {n : FileNode}
    (hq : t.resolve (a.sessionDir s.id) = .ok q) (hn : t.node? q = some n) :
    ¬ a.Storable t s := by
  rintro ⟨t₁, state, hcreate, -⟩
  obtain ⟨e, hmkdir⟩ := exec_mkdir_of_node hq hn []
  rcases createSession_split (a := a) t s [] with ⟨e₁, e₂, -, herror⟩ | ⟨t₂, -, hrun, -⟩
  · cases herror.symm.trans hcreate
  · cases hmkdir.symm.trans hrun

/-- A creation that raises leaves no trace exactly if it raises in the `mkdir`. -/
theorem leavesNoTrace_iff (h : a.Available t s.id) :
    (∀ t' e, a.createSession t s faults = (t', .error e) → a.LeavesNoTrace t t' s.id) ↔
      a.WritesAll t s faults := by
  rcases createSession_split (a := a) t s faults with ⟨e, e', hrun, hcreate⟩ |
    ⟨t₁, q, hrun, hq, hdir, hcreate⟩
  · constructor
    · intro _ t₁ hrun'
      cases hrun.symm.trans hrun'
    · intro _ t' e'' hcreate'
      cases hcreate.symm.trans hcreate'
      exact ⟨rfl, fun _ _ hs ↦ hs⟩
  · constructor
    · intro hall t₂ hrun'
      cases hrun.symm.trans hrun'
      cases hwrite : writeSessionFiles t₁ (a.sessionDir s.id) s faults.tail with
      | mk t' result =>
          cases result with
          | ok _ => rfl
          | error e =>
              -- the directory is there, so whoever could be stored now cannot
              obtain ⟨s₀, hid, hs₀⟩ := h
              have hleft := (hall t' e (hcreate.trans hwrite)).storable s₀ hid hs₀
              have hkeep := keepsKinds_writeSessionFiles t₁ (a.sessionDir s.id) s faults.tail
              rw [hwrite] at hkeep
              obtain ⟨n, hn, -⟩ := hkeep q .dir hdir
              refine absurd hleft (not_storable_of_node (q := q) ?_ hn)
              rw [hid]
              exact hkeep.walk hq
    · intro hwrites t' e hcreate'
      have hok := hwrites t₁ hrun
      rw [← hcreate, hcreate'] at hok
      cases hok

end

/-! ## What is listed can be loaded -/

/-- The paths `serialize_completion_config` stores lead inside as well. -/
theorem insidePaths_serializedConfig [ConfigCodec] {c : CompletionConfig} (h : c.InsidePaths) :
    (serializedConfig c).InsidePaths := by
  have hmem : ∀ {f g : String}, f ∈ truthyText (some g) → f = g := by
    intro f g hf
    have hg : (if g ≠ "" then some g else none) = some f := hf
    split at hg
    · exact (Option.some.inj hg).symm
    · cases hg
  have hprompt : ∀ (prompt f : String),
      f ∈ truthyText (some (systemPromptFile c prompt)) → Inside f := by
    intro prompt f hf
    rw [hmem hf]
    exact inside_systemPromptFile h prompt
  have houtput : ∀ (schemaStr f : String),
      f ∈ truthyText (some (outputConfigFile c schemaStr)) → Inside f := by
    intro schemaStr f hf
    rw [hmem hf]
    exact inside_outputConfigFile h schemaStr
  rw [serializedConfig]
  cases truthyText c.systemPrompt with
  | none =>
      cases c.outputConfig with
      | none => exact h
      | some model => exact ⟨h.systemPrompt, houtput model.schemaStr⟩
  | some prompt =>
      cases c.outputConfig with
      | none => exact ⟨hprompt prompt, h.outputConfig⟩
      | some model => exact ⟨hprompt prompt, houtput model.schemaStr⟩

/-- Deleting without a fault removes the directory, or changes nothing. -/
theorem deleteSession_cases {a : SessionFileAdapter} {t : FileTree} {id : String}
    (hid : PlainName id) :
    (a.deleteSession t id none).1 = t ∨
      (a.deleteSession t id none).1.node? (a.path ++ [id]) = none := by
  obtain ⟨hdir, hplain⟩ := plain_sessionDir (a := a) hid
  have hrmtree : (t.rmtree (a.path ++ [id]) none).1 = t ∨
      (t.rmtree (a.path ++ [id]) none).1.node? (a.path ++ [id]) = none := by
    unfold rmtree
    split
    · exact Or.inl rfl
    · rename_i q hq
      obtain rfl : q = a.path ++ [id] := @walk_eq_ok t [] _ q hplain hq
      split
      · exact Or.inl rfl
      · exact Or.inl rfl
      · exact Or.inr (node?_prune_self (List.concat_ne_nil id a.path))
  rw [deleteSession, hdir]
  split <;> rename_i hrun <;> rw [hrun] at hrmtree <;> exact hrmtree

section

variable [SessionCodec] {a : SessionFileAdapter} {t t' : FileTree} {s : Session} {id : String}

/-- Everything `get_session_ids` lists can be loaded. -/
def ListedLoad (a : SessionFileAdapter) (t : FileTree) : Prop :=
  ∀ ids, a.getSessionIds t = .ok ids → ∀ id ∈ ids, ∃ state, a.getSession t id = .ok state

/-- A session is loaded, and from its own directory alone. -/
structure StoredWell (a : SessionFileAdapter) (t : FileTree) (id : String) : Prop where
  plainName : PlainName id
  inside : a.StoredInside t id
  loads : ∃ state, a.getSession t id = .ok state

/-- Every directory of the store is a session that can be loaded. -/
def Sound (a : SessionFileAdapter) (t : FileTree) : Prop :=
  ∀ id, t.node? (a.path ++ [id]) = some .dir → a.StoredWell t id

/-- A session that comes back from what is written for it, and writes to its own directory
alone. -/
structure Reloads (a : SessionFileAdapter) (s : Session) : Prop where
  plainName : PlainName s.id
  main : s.completionConfig.InsidePaths
  strategy : s.messageContextStrategy.completionConfig.InsidePaths
  roundTrips : RoundTrips s
  restorable : a.Restorable s

/-- A call that does not stop half way: after the `mkdir` of `create_session` nothing
raises, nor where `update_session` writes or `delete_session` removes. -/
def Finishes (a : SessionFileAdapter) (t : FileTree) : StoreOp → Prop
  | .createSession s faults => a.WritesAll t s faults ∧
      ((t.exec [.mkdir (a.sessionDir s.id)] faults).2 = none → a.Reloads s)
  | .updateSession s faults => t.pathExists (a.sessionDir s.id) = true →
      a.Reloads s ∧ (writeSessionFiles t (a.sessionDir s.id) s faults).2 = .ok ()
  | .deleteSession id fault => PlainName id ∧ fault = none

/-- The store, called again and again; it emits how each call ends. -/
def machine (a : SessionFileAdapter) : Mealy FileTree StoreOp (Except PyExc Unit) :=
  ⟨fun t op ↦ some ((op.run a t).1, [(op.run a t).2])⟩

/-- The store accepts every call. -/
theorem run_machine (a : SessionFileAdapter) (t : FileTree) (ops : List StoreOp) :
    ∃ o, (machine a).run t ops = some (a.runAll t ops, o) := by
  induction ops generalizing t with
  | nil => exact ⟨[], rfl⟩
  | cons op ops ih =>
      obtain ⟨o, hrun⟩ := ih (op.run a t).1
      exact ⟨_, Mealy.run_cons rfl hrun⟩

theorem Sound.listedLoad (h : a.Sound t) : a.ListedLoad t := by
  intro ids hids id hid
  rw [getSessionIds] at hids
  split at hids <;> cases hids
  exact (h id (mem_subdirs_iff.mp hid)).loads

/-- What was written is stored well. -/
theorem StoredWell.of_written (hs : a.Reloads s) (h : a.Written t s) : a.StoredWell t s.id := by
  obtain ⟨hdir, -⟩ := plain_sessionDir (a := a) hs.plainName
  refine ⟨hs.plainName, ?_, ?_⟩
  · obtain ⟨hid, hinfo, -⟩ := Holds.of_written h
    intro content raw hread hload
    rw [hdir, hread] at hinfo
    rw [Except.ok.inj hinfo, hs.roundTrips.info hid] at hload
    cases hload
    refine ⟨insidePaths_serializedConfig hs.main, ?_⟩
    rintro strategy ⟨⟩
    exact insidePaths_serializedConfig hs.strategy
  · obtain ⟨hid, hget⟩ := getSession_of_written hs.roundTrips h
    obtain ⟨⟨c, hc⟩, ⟨c', hc'⟩⟩ := hs.restorable t h
    refine ⟨stateOf s hid c c', ?_⟩
    rw [hget, hc, hc']
    rfl

/-- A session is stored well as long as nothing in its directory or on the way to it
changes. -/
theorem StoredWell.congr (h : a.StoredWell t id)
    (hnode : ∀ q, a.path ++ [id] <+: q ∨ q <+: a.path ++ [id] → t'.node? q = t.node? q) :
    a.StoredWell t' id := by
  obtain ⟨-, hplain⟩ := plain_sessionDir (a := a) h.plainName
  have hplainInfo : Plain (a.path ++ [id] ++ [sessionInfo]) :=
    hplain.append (show PlainName sessionInfo from by decide).plain
  refine ⟨h.plainName, ?_, ?_⟩
  · intro content raw hread hload
    refine h.inside content raw ?_ hload
    rw [← read_congr hplainInfo fun q hq ↦ hnode q ?_]
    · exact hread
    · exact List.prefix_or_prefix_of_prefix (List.prefix_append _ _) hq
  · rw [getSession_congr h.plainName h.inside hnode]
    exact h.loads

/-- What was written, in whatever tree, is stored well in its own directory. -/
theorem Reloads.written (hs : a.Reloads s) {t₁ : FileTree} {faults : List (Option Fault)}
    (h : (writeSessionFiles t₁ (a.sessionDir s.id) s faults).2 = .ok ()) :
    a.StoredWell (writeSessionFiles t₁ (a.sessionDir s.id) s faults).1 s.id :=
  .of_written hs ⟨t₁, faults, Prod.ext rfl h⟩

/-- A call that finishes changes nothing, or stays inside the directory of a plain name and
leaves a session there that is stored well, or nothing. -/
theorem Finishes.cases {op : StoreOp} (h : a.Finishes t op) :
    (op.run a t).1 = t ∨ (PlainName op.id ∧ op.InsidePaths) ∧
      (a.StoredWell (op.run a t).1 op.id ∨
        (op.run a t).1.node? (a.path ++ [op.id]) = none) := by
  cases op with
  | createSession s faults =>
      obtain ⟨hwrites, hs⟩ := h
      rw [StoreOp.run]
      rcases createSession_split (a := a) t s faults with ⟨e, e', -, hcreate⟩ |
        ⟨t₁, q, hrun, -, -, hcreate⟩
      · rw [hcreate]
        exact Or.inl rfl
      · have hs : a.Reloads s := hs (congrArg Prod.snd hrun)
        rw [hcreate]
        refine Or.inr ⟨⟨hs.plainName, hs.main, hs.strategy⟩, Or.inl ?_⟩
        exact hs.written (hwrites t₁ hrun)
  | updateSession s faults =>
      rw [StoreOp.run]
      cases hexists : t.pathExists (a.sessionDir s.id) with
      | false => exact Or.inl (updateSession_of_not_exists hexists faults)
      | true =>
          obtain ⟨hs, hwrites⟩ := h hexists
          rw [updateSession, if_pos hexists]
          exact Or.inr ⟨⟨hs.plainName, hs.main, hs.strategy⟩, Or.inl (hs.written hwrites)⟩
  | deleteSession id fault =>
      obtain ⟨hid, rfl⟩ := h
      rcases deleteSession_cases (a := a) (t := t) hid with hsame | hnone
      · exact Or.inl hsame
      · exact Or.inr ⟨⟨hid, trivial⟩, Or.inr hnone⟩

/-- One call that finishes keeps the store sound. -/
theorem Sound.run {op : StoreOp} (h : a.Sound t) (hop : a.Finishes t op) :
    a.Sound (op.run a t).1 := by
  rcases hop.cases with hsame | ⟨⟨hplain, hpaths⟩, hown⟩
  · rw [hsame]
    exact h
  · intro id hid
    by_cases hne : id = op.id
    · subst hne
      rcases hown with hwell | hnone
      · exact hwell
      · cases hnone.symm.trans hid
    · have hframe : ∀ q, a.path ++ [id] <+: q ∨ q <+: a.path ++ [id] →
          (op.run a t).1.node? q = t.node? q := by
        intro q hq
        exact node?_run hplain hpaths (not_prefix_of_sibling (Ne.symm hne) hq)
      rw [hframe _ (Or.inl List.prefix_rfl)] at hid
      exact (h id hid).congr hframe

/-- A run of calls that finish keeps the store sound. -/
theorem Sound.runAll {ops : List StoreOp} (h : a.Sound t)
    (hops : (machine a).StepsMeet a.Finishes t ops) : a.Sound (a.runAll t ops) := by
  obtain ⟨o, hrun⟩ := run_machine a t ops
  refine Mealy.run_induction_of_steps (P := fun _ t _ ↦ a.Sound t) h ?_ hrun hops
  rintro _ t₁ _ op t₂ _ hsound hop ⟨⟩
  exact hsound.run hop

end

/-! ## What a failed creation leaves -/

/-- `sampleStore` before anything is in it. -/
def emptyTree : FileTree := ⟨(∅ : OrderedDict _ _).set ["sessions"] .dir⟩

/-- A disk that is full by the time `session_info` is opened. -/
def fullDisk : List (Option Fault) := [none, none, none, some ⟨.other, none⟩]

theorem storable_sample : @Storable sampleCodec sampleStore emptyTree (sampleSession "b") := by
  have hget : (@getSession sampleCodec sampleStore sampleTree "b").isOk = true := by
    decide +kernel
  obtain ⟨state, hstate⟩ : ∃ state, @getSession sampleCodec sampleStore sampleTree "b" =
      .ok state := by
    cases h : @getSession sampleCodec sampleStore sampleTree "b" with
    | ok state => exact ⟨state, rfl⟩
    | error e =>
        rw [h] at hget
        cases hget
  have hcreate : (@createSession sampleCodec sampleStore emptyTree (sampleSession "b") []).2 =
      .ok () := by
    decide +kernel
  exact ⟨sampleTree, state, Prod.ext rfl hcreate, hstate⟩

/-- What is left of `b` then. -/
def leftTree : FileTree :=
  @runAll sampleCodec sampleStore emptyTree [.createSession (sampleSession "b") fullDisk]

/-- The disk is full while `b` is created: the identifier is listed, cannot be loaded, and is
taken. -/
theorem left_by_failed_creation :
    (@createSession sampleCodec sampleStore emptyTree (sampleSession "b") fullDisk).2 =
        .error (.osError "Failed to write session files: /sessions/b") ∧
      sampleStore.getSessionIds emptyTree = .ok [] ∧
      sampleStore.getSessionIds leftTree = .ok ["b"] ∧
      @Storable sampleCodec sampleStore emptyTree (sampleSession "b") ∧
      (@createSession sampleCodec sampleStore leftTree (sampleSession "b") []).2 =
        .error (.fileExistsError "Session directory already exists: /sessions/b") ∧
      ¬ @LeavesNoTrace sampleCodec sampleStore emptyTree leftTree "b" ∧
      ¬ @ListedLoad sampleCodec sampleStore leftTree := by
  have hbefore : sampleStore.getSessionIds emptyTree = .ok [] := by decide +kernel
  have hafter : sampleStore.getSessionIds leftTree = .ok ["b"] := by decide +kernel
  have hget : (@getSession sampleCodec sampleStore leftTree "b").isOk = false := by
    decide +kernel
  refine ⟨by decide +kernel, hbefore, hafter, storable_sample, by decide +kernel, ?_, ?_⟩
  · intro h
    have hids := @LeavesNoTrace.ids sampleCodec _ _ _ _ h
    rw [hbefore, hafter] at hids
    exact absurd (Except.ok.inj hids) (List.cons_ne_nil _ _)
  · intro h
    obtain ⟨state, hstate⟩ := h _ hafter "b" (List.mem_singleton_self "b")
    rw [hstate] at hget
    cases hget

/-- **Failed creations.**  A creation that raises leaves no trace exactly if it raises in the
`mkdir`; and in every run whose calls do not stop half way, every identifier that is listed
can be loaded. -/
theorem failed_creation [SessionCodec] (a : SessionFileAdapter) (t : FileTree) :
    (∀ (s : Session) (faults : List (Option Fault)), a.Available t s.id →
      ((∀ t' e, a.createSession t s faults = (t', .error e) → a.LeavesNoTrace t t' s.id) ↔
        a.WritesAll t s faults)) ∧
      ∀ ops : List StoreOp, a.Sound t → (machine a).StepsMeet a.Finishes t ops →
        a.ListedLoad (a.runAll t ops) := by
  constructor
  · intro s faults h
    exact leavesNoTrace_iff h
  · intro ops h hops
    exact (h.runAll hops).listedLoad

/-- A creation that is refused the directory, and then one that succeeds. -/
theorem failed_creation_sample :
    @LeavesNoTrace sampleCodec sampleStore emptyTree
        (@createSession sampleCodec sampleStore emptyTree (sampleSession "b")
          [some ⟨.denied, none⟩]).1 "b" ∧
      @ListedLoad sampleCodec sampleStore (@runAll sampleCodec sampleStore emptyTree
        [.createSession (sampleSession "b") [some ⟨.denied, none⟩],
          .createSession (sampleSession "b") []]) ∧
      sampleStore.getSessionIds (@runAll sampleCodec sampleStore emptyTree
        [.createSession (sampleSession "b") [some ⟨.denied, none⟩],
          .createSession (sampleSession "b") []]) = .ok ["b"] := by
  obtain ⟨htrace, hloads⟩ := @failed_creation sampleCodec sampleStore emptyTree
  have havailable : @Available sampleCodec sampleStore emptyTree (sampleSession "b").id :=
    ⟨sampleSession "b", rfl, storable_sample⟩
  -- the first creation raises in the `mkdir`, the second does not raise
  have hrefused : @WritesAll sampleCodec sampleStore emptyTree (sampleSession "b")
      [some ⟨.denied, none⟩] := by
    intro t₁ hrun
    have hmkdir : (emptyTree.exec [.mkdir (sampleStore.sessionDir "b")]
        [some ⟨.denied, none⟩]).2 = some .denied := rfl
    rw [show sampleStore.sessionDir (sampleSession "b").id = sampleStore.sessionDir "b" from rfl]
      at hrun
    rw [hrun] at hmkdir
    cases hmkdir
  have hcreated : @WritesAll sampleCodec sampleStore emptyTree (sampleSession "b") [] := by
    intro t₁ hrun
    obtain rfl : (emptyTree.exec [.mkdir (sampleStore.sessionDir "b")] []).1 = t₁ :=
      congrArg Prod.fst hrun
    decide +kernel
  have hinside : CompletionConfig.sample.InsidePaths :=
    ⟨fun f hf ↦ absurd hf (Option.not_mem_none f), fun f hf ↦ absurd hf (Option.not_mem_none f)⟩
  have hself : CompletionConfig.sample.SelfContained := ⟨rfl, rfl, fun _ ↦ rfl⟩
  have hreloads : @Reloads sampleCodec sampleStore (sampleSession "b") := by
    refine @Reloads.mk sampleCodec _ _ (by decide) hinside hinside ?_ ?_
    · exact @RoundTrips.mk sampleCodec _ (fun _ ↦ if_pos rfl) (if_pos rfl)
    · exact @restorable_of_no_output sampleCodec _ _ hself hself
  have hsound : @Sound sampleCodec sampleStore emptyTree := by
    intro id hid
    rw [node?, if_neg (List.concat_ne_nil id _), emptyTree, OrderedDict.get?_set_of_ne] at hid
    · cases hid
    · exact fun h ↦ absurd (congrArg List.length h) (show 1 ≠ 2 by decide)
  refine ⟨(htrace _ _ havailable).mpr hrefused _ _ rfl, hloads _ hsound ?_, by decide +kernel⟩
  refine .cons rfl ⟨hrefused, fun h ↦ by cases h⟩ ?_
  exact .cons rfl ⟨hcreated, fun _ ↦ hreloads⟩ .nil

end SessionFileAdapter
