import ChatServer.Service.UseCases
import ChatServer.Storage.Isolation

/-!
# Updates that are cut short

`_write_session_files` overwrites the files of a session in place, the information first
and then the messages, so an update that raises can leave a file cut short, or the new
information beside the old messages.  It leaves nothing else: what is loaded afterwards, if
anything is, is the old state, the new one, or the new metadata with the old records
(`getSession_of_update`).

That a document which is cut short is no document is what makes the torn files fail to
load (`RejectsCut`); the resources of the configurations are written to files of their own.
-/

open FileTree

namespace SessionFileAdapter

section

variable [SessionCodec] {a : SessionFileAdapter} {t t' : FileTree} {s s' : Session}
  {faults : List (Option Fault)}

/-- The calls that write a session. -/
def writeActions (dir : List String) (s : Session) (h : s.id ≠ "") : List Action :=
  resourceActions dir s ++ fileActions dir s h

/-- What the two documents of a session begin with, short of the whole, cannot be
decoded. -/
structure RejectsCut (s : Session) : Prop where
  info : ∀ (h : s.id ≠ "") (text : String),
    text.toList <+: (SessionCodec.dumpInfo (infoOf s h)).toList →
      text ≠ SessionCodec.dumpInfo (infoOf s h) → ∃ e, SessionCodec.loadInfo text = .error e
  messages : ∀ text : String,
    text.toList <+: (SessionCodec.dumpMessages (messagesOf s)).toList →
      text ≠ SessionCodec.dumpMessages (messagesOf s) →
        ∃ e, SessionCodec.loadMessages text = .error e

/-- The resources of a session are written inside its directory, but not to its two
files. -/
structure SideFiles (s : Session) (dir : List String) : Prop where
  main : s.completionConfig.InsidePaths
  strategy : s.messageContextStrategy.completionConfig.InsidePaths
  info : ∀ action ∈ resourceActions dir s, action.path ≠ dir ++ [sessionInfo]
  messages : ∀ action ∈ resourceActions dir s, action.path ≠ dir ++ [sessionMessages]

theorem plain_resourceActions {dir : List String} (hdir : Plain dir) (hside : SideFiles s dir) :
    ∀ action ∈ resourceActions dir s, Plain action.path := by
  intro action haction
  obtain ⟨rest, hrest, hpath⟩ := path_resourceActions hside.main hside.strategy haction
  rw [hpath]
  exact hdir.append hrest

/-- However `_write_session_files` ends, the messages are touched only once the information
is complete, and what was touched holds its new text or where it begins. -/
theorem read_writeSessionFiles {dir : List String} {oldInfo oldMessages : String}
    (hdir : Plain dir) (hside : SideFiles s dir)
    (htruncating : ∀ h, Truncating (writeActions dir s h) faults)
    (hinfo : t.read (dir ++ [sessionInfo]) = .ok oldInfo)
    (hmessages : t.read (dir ++ [sessionMessages]) = .ok oldMessages) :
    ∃ info messages,
      (writeSessionFiles t dir s faults).1.read (dir ++ [sessionInfo]) = .ok info ∧
      (writeSessionFiles t dir s faults).1.read (dir ++ [sessionMessages]) = .ok messages ∧
      (info = oldInfo ∧ messages = oldMessages ∨ ∃ h : s.id ≠ "",
        info.toList <+: (SessionCodec.dumpInfo (infoOf s h)).toList ∧ messages = oldMessages ∨
        info = SessionCodec.dumpInfo (infoOf s h) ∧
          messages.toList <+: (SessionCodec.dumpMessages (messagesOf s)).toList) := by
  have hplainInfo : Plain (dir ++ [sessionInfo]) :=
    hdir.append (show PlainName sessionInfo from by decide).plain
  have hplainMessages : Plain (dir ++ [sessionMessages]) :=
    hdir.append (show PlainName sessionMessages from by decide).plain
  unfold writeSessionFiles
  split
  · exact ⟨_, _, hinfo, hmessages, Or.inl ⟨rfl, rfl⟩⟩
  · rename_i hid
    split
    · exact ⟨_, _, hinfo, hmessages, Or.inl ⟨rfl, rfl⟩⟩
    · -- the resources go to other files
      have hplain := plain_resourceActions hdir hside
      have hinfo₁ := read_exec_of_ne hplain faults hplainInfo hside.info hinfo
      have hmessages₁ := read_exec_of_ne hplain faults hplainMessages hside.messages hmessages
      split
      · rename_i t₁ e hrun
        rw [hrun] at hinfo₁ hmessages₁
        exact ⟨_, _, hinfo₁, hmessages₁, Or.inl ⟨rfl, rfl⟩⟩
      · rename_i t₁ hrun
        rw [hrun] at hinfo₁ hmessages₁
        have hne : dir ++ [sessionInfo] ≠ dir ++ [sessionMessages] := by
          intro heq
          have hnames := List.singleton_inj.mp (List.append_cancel_left heq)
          exact absurd hnames (by decide)
        obtain ⟨info, messages, hinfo₂, hmessages₂, htorn⟩ :=
          read_exec_torn hplainInfo hplainMessages hne (htruncating hid).append_right hinfo₁
            hmessages₁
        refine ⟨info, messages, ?_, ?_, ?_⟩
        · split <;> rename_i hfiles <;> rw [fileActions] at hfiles <;> rw [hfiles] at hinfo₂ <;>
            exact hinfo₂
        · split <;> rename_i hfiles <;> rw [fileActions] at hfiles <;> rw [hfiles] at hmessages₂ <;>
            exact hmessages₂
        · rcases htorn with ⟨rfl | hcut, rfl⟩ | ⟨rfl, rfl | hcut⟩
          · exact Or.inl ⟨rfl, rfl⟩
          · exact Or.inr ⟨hid, Or.inl ⟨hcut, rfl⟩⟩
          · exact Or.inr ⟨hid, Or.inl ⟨List.prefix_rfl, rfl⟩⟩
          · exact Or.inr ⟨hid, Or.inr ⟨rfl, hcut⟩⟩

/-- A session whose information cannot be decoded is not loaded. -/
theorem getSession_ne_ok_of_info {id text : String} {e : PyExc} {state : SessionState}
    (hread : t.read (a.sessionDir id ++ [sessionInfo]) = .ok text)
    (hload : SessionCodec.loadInfo text = .error e) : a.getSession t id ≠ .ok state := by
  intro hget
  obtain ⟨raw, hraw, -⟩ := Py.bind_eq_ok.mp hget
  rw [readFile, hread] at hraw
  cases hload.symm.trans hraw

/-- A session whose messages cannot be decoded is not loaded. -/
theorem getSession_ne_ok_of_messages {id text : String} {e : PyExc} {state : SessionState}
    (hread : t.read (a.sessionDir id ++ [sessionMessages]) = .ok text)
    (hload : SessionCodec.loadMessages text = .error e) : a.getSession t id ≠ .ok state := by
  intro hget
  obtain ⟨raw, -, hget⟩ := Py.bind_eq_ok.mp hget
  obtain ⟨info, -, hget⟩ := Py.bind_eq_ok.mp hget
  obtain ⟨messages, hmessages, -⟩ := Py.bind_eq_ok.mp hget
  rw [readFile, hread] at hmessages
  cases hload.symm.trans hmessages

/-- What the configurations stored for a session come back as, with their resources as the
files in a directory then are. -/
structure Resolves (t : FileTree) (dir : List String) (s : Session)
    (completionConfig strategyCompletionConfig : CompletionConfig) : Prop where
  main : resolveCompletionConfig t (serializedConfig s.completionConfig) dir =
    .ok completionConfig
  strategy : resolveCompletionConfig t
    (serializedConfig s.messageContextStrategy.completionConfig) dir =
      .ok strategyCompletionConfig

theorem state_of_holds {id : String} {state : SessionState} (hround : RoundTrips s)
    (hround' : RoundTrips s') (h : a.Holds t id s s') (hget : a.getSession t id = .ok state) :
    ∃ (hid : s.id ≠ "") (c c' : CompletionConfig), Resolves t (a.sessionDir id) s c c' ∧
      state = { stateOf s hid c c' with strategyRecords := s'.messages } := by
  obtain ⟨hid, hloads⟩ := getSession_of_holds hround hround' h
  rw [hloads] at hget
  obtain ⟨c, hc, hget⟩ := Py.bind_eq_ok.mp hget
  obtain ⟨c', hc', hget⟩ := Py.bind_eq_ok.mp hget
  cases hget
  exact ⟨hid, c, c', ⟨hc, hc'⟩, rfl⟩

/-- What may be loaded after an update: the old state, the new one, or the new one with the
records of the old. -/
inductive Torn (t : FileTree) (dir : List String) (s s' : Session) (state : SessionState) :
    Prop where
  | old (h : s.id ≠ "") (c c' : CompletionConfig) (hc : Resolves t dir s c c')
      (hstate : state = stateOf s h c c')
  | new (h : s'.id ≠ "") (c c' : CompletionConfig) (hc : Resolves t dir s' c c')
      (hstate : state = stateOf s' h c c')
  | mixed (h : s'.id ≠ "") (c c' : CompletionConfig) (hc : Resolves t dir s' c c')
      (hstate : state = { stateOf s' h c c' with strategyRecords := s.messages })

/-- After an update that raised anywhere, or did not, the session is not loaded at all, or
it is the old one, the new one, or the new one with the records of the old. -/
theorem getSession_of_update {state : SessionState} (hname : PlainName s.id) (hsame : s'.id = s.id)
    (hstored : a.Holds t s.id s s) (hround : RoundTrips s) (hround' : RoundTrips s')
    (hcut : RejectsCut s') (hside : SideFiles s' (a.sessionDir s.id))
    (htruncating : ∀ h, Truncating (writeActions (a.sessionDir s.id) s' h) faults)
    (hget : a.getSession (a.updateSession t s' faults).1 s.id = .ok state) :
    Torn (a.updateSession t s' faults).1 (a.sessionDir s.id) s s' state := by
  have hid : s.id ≠ "" := hname.ne_empty
  have hold : ∀ {t : FileTree}, a.Holds t s.id s s → a.getSession t s.id = .ok state →
      Torn t (a.sessionDir s.id) s s' state := by
    intro t hholds hget
    obtain ⟨h, c, c', hc, hstate⟩ := state_of_holds hround hround hholds hget
    exact .old h c c' hc hstate
  simp only [updateSession, hsame] at hget ⊢
  by_cases hexists : t.pathExists (a.sessionDir s.id) = true
  · rw [if_pos hexists] at hget ⊢
    obtain ⟨_, hinfo, hmessages⟩ := hstored
    obtain ⟨hdir, hplain⟩ := plain_sessionDir hname
    obtain ⟨info, messages, hinfo', hmessages', htorn⟩ :=
      read_writeSessionFiles (hdir ▸ hplain) hside htruncating hinfo hmessages
    rcases htorn with ⟨rfl, rfl⟩ | ⟨h', ⟨hbegins, rfl⟩ | ⟨rfl, hbegins⟩⟩
    · exact hold ⟨hid, hinfo', hmessages'⟩ hget
    · by_cases hwhole : info = SessionCodec.dumpInfo (infoOf s' h')
      · subst hwhole
        obtain ⟨h, c, c', hc, hstate⟩ :=
          state_of_holds hround' hround ⟨h', hinfo', hmessages'⟩ hget
        exact .mixed h c c' hc hstate
      · obtain ⟨e, he⟩ := hcut.info h' info hbegins hwhole
        exact absurd hget (getSession_ne_ok_of_info hinfo' he)
    · by_cases hwhole : messages = SessionCodec.dumpMessages (messagesOf s')
      · subst hwhole
        obtain ⟨h, c, c', hc, hstate⟩ :=
          state_of_holds hround' hround' ⟨h', hinfo', hmessages'⟩ hget
        exact .new h c c' hc hstate
      · obtain ⟨e, he⟩ := hcut.messages messages hbegins hwhole
        exact absurd hget (getSession_ne_ok_of_messages hmessages' he)
  · rw [if_neg hexists] at hget ⊢
    exact hold hstored hget

end

/-! ## An update to evaluate -/

/-- The tree of the session `s` as it was made. -/
def sampleMade : FileTree :=
  (@createSession App.sampleCodec sampleStore App.sampleTree App.sampleSession []).1

/-- The messages file cannot be opened. -/
def sampleFaults : List (Option Fault) := [none, none, none, some ⟨.denied, none⟩]

/-- The update of the session `s` after its first call, with faults. -/
def sampleUpdate (faults : List (Option Fault)) : FileTree × Except PyExc Unit :=
  @updateSession App.sampleCodec sampleStore sampleMade App.sampleTold faults

/-- A fault that leaves nothing leaves nothing but a beginning. -/
theorem truncating_sampleFaults (as : List Action) : Truncating as sampleFaults := by
  intro i p content fault left _ hfault hleft
  have hnone : ∀ f ∈ sampleFaults, ∀ fault, f = some fault → fault.left = none := by decide
  rw [hnone _ (List.mem_of_getElem? hfault) fault rfl] at hleft
  cases hleft

/-- Texts that go on differently after a common part. -/
theorem not_prefix_of_head {front x y : String} {c d : Char} (hx : x.toList.head? = some c)
    (hy : y.toList.head? = some d) (hcd : c ≠ d) :
    ¬ (front ++ x).toList <+: (front ++ y).toList := by
  rw [String.toList_append, String.toList_append, List.prefix_append_right_inj]
  rintro ⟨rest, heq⟩
  have hhead := congrArg List.head? heq
  rw [List.head?_append, hx, hy, Option.some_or, Option.some.injEq] at hhead
  exact hcd hhead

theorem head?_append {x y : String} {c : Char} (hx : x.toList.head? = some c) :
    (x ++ y).toList.head? = some c := by
  rw [String.toList_append, List.head?_append, hx, Option.some_or]

/-- The statistics stand alone in an information file. -/
theorem sampleInfoText_eq : ∃ front back : String,
    ∀ statistics, App.sampleInfoText statistics = front ++ (statistics ++ back) := by
  have hgroup : ∀ p x c d f e : String,
      p ++ x ++ c ++ d ++ f ++ e = p ++ (x ++ (c ++ (d ++ (f ++ e)))) := by
    intro p x c d f e
    simp only [String.append_assoc]
  exact ⟨_, _, fun statistics ↦ hgroup _ statistics _ _ _ _⟩

/-- The records stand alone in a messages file. -/
theorem sampleRecordsText_eq :
    ∃ back : String, App.sampleRecordsText = "\x7b\"records\": [" ++ ("\x7b" ++ back) := by
  refine ⟨"\"id\": \"00000000-0000-0000-0000-000000000001\", \"prev_id\": null, " ++
    "\"message\": \x7b\"role\": \"user\", \"content\": \"hi\"\x7d\x7d, " ++
    "\x7b\"id\": \"00000000-0000-0000-0000-000000000002\", " ++
    "\"prev_id\": \"00000000-0000-0000-0000-000000000001\", " ++
    "\"message\": \x7b\"role\": \"assistant\", \"content\": \"yo\"\x7d\x7d]\x7d", ?_⟩
  decide +kernel

theorem rejectsCut_sampleTold : @RejectsCut App.sampleCodec App.sampleTold := by
  have hnull : ¬ (App.sampleInfoText "null").toList <+:
      (App.sampleInfoText App.sampleStatsText).toList := by
    obtain ⟨front, back, hsplit⟩ := sampleInfoText_eq
    rw [hsplit, hsplit]
    exact not_prefix_of_head (head?_append (show "null".toList.head? = some 'n' from by decide))
      (head?_append (show App.sampleStatsText.toList.head? = some '\x7b' from by decide +kernel))
      (by decide)
  have hempty : ¬ "\x7b\"records\": []\x7d".toList <+: App.sampleRecordsText.toList := by
    obtain ⟨back, hsplit⟩ := sampleRecordsText_eq
    rw [hsplit, show "\x7b\"records\": []\x7d" = "\x7b\"records\": [" ++ "]\x7d" from
      by decide +kernel]
    exact not_prefix_of_head (show "]\x7d".toList.head? = some ']' from by decide)
      (head?_append (show "\x7b".toList.head? = some '\x7b' from by decide)) (by decide)
  have hstats : App.sampleStats.orNone ≠ none := by decide +kernel
  refine @RejectsCut.mk App.sampleCodec App.sampleTold (fun h text hbegins hne ↦ ?_)
    fun text hbegins hne ↦ ?_
  · have hdump : App.sampleCodec.dumpInfo (@infoOf App.sampleCodec App.sampleTold h) =
        App.sampleInfoText App.sampleStatsText := congrArg App.sampleInfoText (if_neg hstats)
    rw [hdump] at hbegins hne
    refine ⟨.valueError "Invalid JSON in session info file", ?_⟩
    show (if text = App.sampleInfoText "null" then _ else
      if text = App.sampleInfoText App.sampleStatsText then _ else _) = _
    rw [if_neg ?_, if_neg hne]
    rintro rfl
    exact hnull hbegins
  · have hdump : App.sampleCodec.dumpMessages (messagesOf App.sampleTold) =
        App.sampleRecordsText := if_neg (List.cons_ne_nil _ _)
    rw [hdump] at hbegins hne
    refine ⟨.valueError "Invalid JSON in session info file", ?_⟩
    show (if text = "\x7b\"records\": []\x7d" then _ else
      if text = App.sampleRecordsText then _ else _) = _
    rw [if_neg ?_, if_neg hne]
    rintro rfl
    exact hempty hbegins

/-- What is loaded after the update that could not open the messages file. -/
theorem getSession_of_update_sample : ∃ state,
    @getSession App.sampleCodec sampleStore (sampleUpdate sampleFaults).1 "s" = .ok state ∧
      @Torn App.sampleCodec (sampleUpdate sampleFaults).1 (sampleStore.sessionDir "s")
        App.sampleSession App.sampleTold state := by
  have hround : @RoundTrips App.sampleCodec App.sampleSession :=
    App.roundTrips_sample rfl rfl rfl rfl (Or.inl ⟨rfl, rfl⟩)
  have hround' : @RoundTrips App.sampleCodec App.sampleTold :=
    App.roundTrips_sample rfl rfl rfl rfl (Or.inr ⟨rfl, by decide +kernel⟩)
  have hmade : @createSession App.sampleCodec sampleStore App.sampleTree App.sampleSession [] =
      (sampleMade, .ok ()) := Prod.ext rfl (by decide +kernel)
  have hstored : @Holds App.sampleCodec sampleStore sampleMade "s" App.sampleSession
      App.sampleSession :=
    @Holds.of_written App.sampleCodec sampleStore sampleMade App.sampleSession
      (@Written.of_createSession App.sampleCodec sampleStore _ sampleMade App.sampleSession []
        hmade)
  have hinside : CompletionConfig.sample.InsidePaths :=
    ⟨fun f hf ↦ absurd hf (Option.not_mem_none f), fun f hf ↦ absurd hf (Option.not_mem_none f)⟩
  have hactions : ∀ action ∈ @resourceActions App.sampleCodec (sampleStore.sessionDir "s")
      App.sampleTold, action.path = sampleStore.sessionDir "s" := by decide +kernel
  have hside : @SideFiles App.sampleCodec App.sampleTold (sampleStore.sessionDir "s") := by
    refine @SideFiles.mk App.sampleCodec _ _ hinside hinside (fun action haction ↦ ?_)
      fun action haction ↦ ?_
    · rw [hactions action haction]
      exact fun heq ↦ List.cons_ne_nil _ _ (List.self_eq_append_right.mp heq)
    · rw [hactions action haction]
      exact fun heq ↦ List.cons_ne_nil _ _ (List.self_eq_append_right.mp heq)
  obtain ⟨state, hstate⟩ : ∃ state, @getSession App.sampleCodec sampleStore
      (sampleUpdate sampleFaults).1 "s" = .ok state := by
    cases hget : @getSession App.sampleCodec sampleStore (sampleUpdate sampleFaults).1 "s" with
    | ok state => exact ⟨state, rfl⟩
    | error e =>
        have hok : (@getSession App.sampleCodec sampleStore
          (sampleUpdate sampleFaults).1 "s").isOk = true := by decide +kernel
        rw [hget] at hok
        cases hok
  refine ⟨state, hstate, ?_⟩
  exact @getSession_of_update App.sampleCodec sampleStore sampleMade App.sampleSession
    App.sampleTold sampleFaults state (by decide) rfl hstored hround hround' rejectsCut_sampleTold
    hside (fun _ ↦ truncating_sampleFaults _) hstate

/-- The new statistics without the new records, and a file that is cut short. -/
theorem update_not_atomic :
    (sampleUpdate sampleFaults).2 = .error (.permissionError
        "Permission denied when writing session files: /sessions/s") ∧
      (@getSession App.sampleCodec sampleStore (sampleUpdate sampleFaults).1 "s").map
        (fun state ↦ (state.statistics, state.strategyRecords)) =
          .ok (some App.sampleStats, []) ∧
      App.sampleSession.usageStats.lifecycleTotalData.orNone = none ∧
      App.sampleTold.messages ≠ [] ∧
      (@getSession App.sampleCodec sampleStore
        (sampleUpdate [none, none, some ⟨.other, some ""⟩]).1 "s").isOk = false := by
  decide +kernel

end SessionFileAdapter
