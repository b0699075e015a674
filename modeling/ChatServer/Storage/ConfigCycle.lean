import ChatServer.Storage.Isolation
import ChatServer.Storage.ReadBack
import Mathlib.Data.Set.Function

/-!
# Configurations that are stored and loaded again

A system prompt travels through a file next to the session.  Its name is derived from the
prompt the first time, and remembered in the configuration that is loaded.  A prompt is written
as it is and read with its line ends made uniform, so it comes back as it was exactly if it has
no carriage return; afterwards nothing changes any more.

The configurations of a session are copies without file names, or come from an earlier load of
the session (`Kept`).  That distinct prompts have distinct names is assumed of the prompts that
were ever given to the session, a set `P`: of all texts it cannot hold.
-/

open FileTree

/-! ## Line ends -/

theorem universalNewlines_cons {c : Char} (hc : c ≠ '\r') (cs : List Char) :
    universalNewlines (c :: cs) = c :: universalNewlines cs := by
  rw [universalNewlines]
  · intro cs' h
    exact absurd h hc
  · exact hc

theorem notMem_universalNewlines (s : List Char) : '\r' ∉ universalNewlines s := by
  fun_induction universalNewlines s with
  | case1 => exact List.not_mem_nil
  | case2 cs ih | case3 cs hcs ih => exact List.not_mem_cons_of_ne_of_not_mem (by decide) ih
  | case4 c cs hcs hc ih =>
      exact List.not_mem_cons_of_ne_of_not_mem (fun h ↦ hc h.symm) ih

/-- A text is read as it was written exactly if it has no carriage return. -/
theorem universalNewlines_eq_self_iff {s : List Char} :
    universalNewlines s = s ↔ '\r' ∉ s := by
  constructor
  · intro h
    rw [← h]
    exact notMem_universalNewlines s
  · intro h
    induction s with
    | nil => rfl
    | cons c cs ih =>
        rw [List.mem_cons, not_or] at h
        rw [universalNewlines_cons (Ne.symm h.1), ih h.2]

/-- A text as it is read. -/
def asRead (text : String) : String := String.ofList (universalNewlines text.toList)

theorem asRead_eq_self_iff {text : String} : asRead text = text ↔ '\r' ∉ text.toList := by
  rw [← universalNewlines_eq_self_iff, asRead]
  constructor
  · intro h
    exact (String.toList_ofList).symm.trans (congrArg String.toList h)
  · intro h
    rw [h, String.ofList_toList]

/-- Reading twice is reading once. -/
theorem asRead_asRead (text : String) : asRead (asRead text) = asRead text := by
  rw [asRead_eq_self_iff, asRead, String.toList_ofList]
  exact notMem_universalNewlines text.toList

theorem asRead_ne {text : String} (h : text ≠ "") : asRead text ≠ "" := by
  intro hread
  have hnil := congrArg String.toList hread
  rw [asRead, String.toList_ofList] at hnil
  apply h
  rw [← String.toList_inj]
  cases htext : text.toList with
  | nil => rfl
  | cons c cs =>
      rw [htext, universalNewlines.eq_def] at hnil
      split at hnil
      · rename_i heq
        cases heq
      all_goals cases hnil

theorem truthyText_eq_some {o : Option String} {s : String} (h : truthyText o = some s) :
    o = some s := by
  unfold truthyText at h
  split at h
  · split at h
    · exact h
    · cases h
  · cases h

theorem eq_empty_of_truthyText {o : Option String} {s : String} (h : truthyText o = none)
    (ho : o = some s) : s = "" := by
  by_contra hs
  rw [ho, truthyText_of_ne hs] at h
  cases h

/-! ## The names of prompts -/

section

variable [ConfigCodec]

/-- The name derived from a prompt. -/
def promptFile (prompt : String) : String :=
  "system_prompt_" ++ String.ofList (Py.hexDigits 8 (ConfigCodec.digest prompt)) ++ ".txt"

theorem systemPromptFile_of_none {c : CompletionConfig} (h : c.systemPromptPath = none)
    (prompt : String) : systemPromptFile c prompt = promptFile prompt := by
  rw [systemPromptFile, h]
  rfl

theorem systemPromptFile_of_some {c : CompletionConfig} {name : String}
    (h : c.systemPromptPath = some name) (hname : name ≠ "") (prompt : String) :
    systemPromptFile c prompt = name := by
  rw [systemPromptFile, h, truthyText_of_ne hname]
  rfl

theorem plainName_promptFile (prompt : String) : PlainName (promptFile prompt) :=
  plainName_hexDigits _ (by decide) (by decide) (by decide)

/-- A configuration without an output model, whose prompt, if it has one, is stored under the
name of a prompt in `P` that is the same as it is read. -/
structure CompletionConfig.Named (P : Set String) (c : CompletionConfig) : Prop where
  outputConfig : c.outputConfig = none
  outputConfigPath : c.outputConfigPath = none
  noPrompt : truthyText c.systemPrompt = none → c.systemPromptPath = none
  prompt : ∀ p, truthyText c.systemPrompt = some p →
    ∃ x ∈ P, asRead p = asRead x ∧ systemPromptFile c p = promptFile x

/-- A configuration as it is loaded once it was stored. -/
def CompletionConfig.reloaded (c : CompletionConfig) : CompletionConfig :=
  match truthyText c.systemPrompt with
  | some p =>
      { c with systemPrompt := some (asRead p), systemPromptPath := some (systemPromptFile c p) }
  | none => c

namespace CompletionConfig

variable {P : Set String} {c : CompletionConfig}

theorem reloaded_of_none (h : truthyText c.systemPrompt = none) : c.reloaded = c := by
  rw [reloaded, h]

theorem reloaded_of_some {p : String} (h : truthyText c.systemPrompt = some p) :
    c.reloaded = { c with
      systemPrompt := some (asRead p), systemPromptPath := some (systemPromptFile c p) } := by
  rw [reloaded, h]

/-- What is loaded has the prompt under the name it was read from. -/
theorem prompt_reloaded {p : String} (h : truthyText c.systemPrompt = some p) :
    truthyText c.reloaded.systemPrompt = some (asRead p) ∧
      ∀ q, systemPromptFile c.reloaded q = systemPromptFile c p := by
  rw [reloaded_of_some h]
  refine ⟨truthyText_of_ne (asRead_ne (ne_of_truthyText h)), ?_⟩
  intro q
  exact systemPromptFile_of_some rfl (systemPromptFile_ne c p) q

/-- A second load changes nothing. -/
theorem reloaded_reloaded (c : CompletionConfig) : c.reloaded.reloaded = c.reloaded := by
  cases hprompt : truthyText c.systemPrompt with
  | none => rw [reloaded_of_none hprompt, reloaded_of_none hprompt]
  | some p =>
      obtain ⟨hread, hfile⟩ := prompt_reloaded hprompt
      rw [reloaded_of_some hread, hfile, asRead_asRead, reloaded_of_some hprompt]

theorem Named.reloaded (h : c.Named P) : c.reloaded.Named P := by
  cases hprompt : truthyText c.systemPrompt with
  | none =>
      rw [reloaded_of_none hprompt]
      exact h
  | some p =>
      obtain ⟨x, hx, hread, hname⟩ := h.prompt p hprompt
      obtain ⟨hread', hfile⟩ := prompt_reloaded hprompt
      constructor
      · rw [reloaded_of_some hprompt]
        exact h.outputConfig
      · rw [reloaded_of_some hprompt]
        exact h.outputConfigPath
      · intro hnone
        cases hread'.symm.trans hnone
      · intro q hq
        obtain rfl := Option.some.inj (hread'.symm.trans hq)
        exact ⟨x, hx, (asRead_asRead p).trans hread, (hfile _).trans hname⟩

/-- A load restores everything exactly if the prompt has no carriage return. -/
theorem copy_reloaded_iff : c.reloaded.copy = c.copy ↔
    ∀ p, c.systemPrompt = some p → '\r' ∉ p.toList := by
  cases hprompt : truthyText c.systemPrompt with
  | none =>
      rw [reloaded_of_none hprompt]
      refine iff_of_true rfl ?_
      intro p hp
      rw [eq_empty_of_truthyText hprompt hp]
      exact List.not_mem_nil
  | some p =>
      have hp := truthyText_eq_some hprompt
      rw [reloaded_of_some hprompt]
      constructor
      · intro h q hq
        obtain rfl := Option.some.inj (hp.symm.trans hq)
        have hcopy := congrArg CompletionConfig.systemPrompt h
        exact asRead_eq_self_iff.mp (Option.some.inj (hcopy.trans hp))
      · intro h
        have hread := asRead_eq_self_iff.mpr (h p hp)
        simp only [copy, hread, ← hp]

end CompletionConfig

/-! ## One load after a store -/

/-- A configuration loads as `reloaded` when its file holds a text that is read the same. -/
theorem resolve_of_read {t : FileTree} {dir : List String} {P : Set String}
    {c : CompletionConfig} (h : c.Named P)
    (hread : ∀ p, truthyText c.systemPrompt = some p →
      ∃ content, t.read (join dir (systemPromptFile c p)) = .ok content ∧
        asRead content = asRead p) :
    resolveCompletionConfig t (serializedConfig c) dir = .ok c.reloaded := by
  have houtput : ∀ raw : CompletionConfig, raw.outputConfigPath = none →
      resolveOutputConfig t raw dir = .ok raw := by
    intro raw hraw
    rw [resolveOutputConfig, hraw]
    rfl
  cases hprompt : truthyText c.systemPrompt with
  | none =>
      have hser := serializedConfig_of_none h.outputConfig hprompt
      rw [hser, CompletionConfig.reloaded_of_none hprompt, resolveCompletionConfig,
        resolveSystemPrompt, h.noPrompt hprompt]
      exact houtput c h.outputConfigPath
  | some p =>
      have hser := serializedConfig_of_some h.outputConfig hprompt
      obtain ⟨content, hcontent, hsame⟩ := hread p hprompt
      rw [hser, CompletionConfig.reloaded_of_some hprompt, resolveCompletionConfig,
        resolveSystemPrompt, truthyText_of_ne (systemPromptFile_ne c p)]
      simp only [loadResource, hcontent]
      rw [← hsame]
      exact houtput _ h.outputConfigPath

/-! ## What a store leaves in the files of the prompts -/

section

variable {P : Set String} {c : CompletionConfig} {t t' : FileTree} {dir : List String}
  {faults : List (Option Fault)} {p : String}

theorem CompletionConfig.Named.plainName (h : c.Named P) (hp : truthyText c.systemPrompt = some p) :
    PlainName (systemPromptFile c p) := by
  obtain ⟨x, -, -, hname⟩ := h.prompt p hp
  rw [hname]
  exact plainName_promptFile x

theorem CompletionConfig.Named.serializeActions_of_some (h : c.Named P)
    (hp : truthyText c.systemPrompt = some p) :
    serializeActions c dir = [.ensureDir dir, .write (dir ++ [systemPromptFile c p]) p] := by
  rw [serializeActions, resourceWrites, hp, h.outputConfig, ← join_of_plainName (h.plainName hp)]
  rfl

theorem CompletionConfig.Named.serializeActions_of_none (h : c.Named P)
    (hp : truthyText c.systemPrompt = none) : serializeActions c dir = [.ensureDir dir] := by
  rw [serializeActions, resourceWrites, hp, h.outputConfig]
  rfl

theorem read_of_serialized (h : c.Named P) (hp : truthyText c.systemPrompt = some p)
    (hexec : t.exec (serializeActions c dir) faults = (t', none)) :
    t'.read (dir ++ [systemPromptFile c p]) = .ok p := by
  rw [h.serializeActions_of_some hp] at hexec
  obtain ⟨t₁, -, hexec⟩ := exec_cons_ok hexec
  obtain ⟨t₂, hrun, hexec⟩ := exec_cons_ok hexec
  cases hexec
  exact read_run_write hrun

/-- Storing a configuration leaves a file as it is, or puts the prompt there. -/
theorem read_beside_serialized (h : c.Named P) {name content : String} (hname : name ≠ "..")
    (hexec : t.exec (serializeActions c dir) faults = (t', none))
    (hread : t.read (dir ++ [name]) = .ok content) :
    t'.read (dir ++ [name]) = .ok content ∨
      ∃ p, truthyText c.systemPrompt = some p ∧ systemPromptFile c p = name ∧
        t'.read (dir ++ [name]) = .ok p := by
  cases hp : truthyText c.systemPrompt with
  | none =>
      rw [h.serializeActions_of_none hp] at hexec
      refine .inl (read_exec_beside hname ?_ hexec hread)
      intro action haction
      rw [List.mem_singleton.mp haction]
      exact .inl rfl
  | some p =>
      by_cases hsame : systemPromptFile c p = name
      · subst hsame
        exact .inr ⟨p, rfl, rfl, read_of_serialized h hp hexec⟩
      · rw [h.serializeActions_of_some hp] at hexec
        refine .inl (read_exec_beside hname ?_ hexec hread)
        intro action haction
        rcases List.mem_cons.mp haction with rfl | haction
        · exact .inl rfl
        · rw [List.mem_singleton.mp haction]
          exact .inr ⟨_, rfl, (h.plainName hp).ne_dotdot, hsame⟩

end

end

/-- Prompts stored under one name are read the same. -/
theorem asRead_eq_of_file_eq [ConfigCodec] {P : Set String} (hP : Set.InjOn promptFile P)
    {c c' : CompletionConfig} (h : c.Named P) (h' : c'.Named P) {p p' : String}
    (hp : truthyText c.systemPrompt = some p) (hp' : truthyText c'.systemPrompt = some p')
    (hfile : systemPromptFile c' p' = systemPromptFile c p) : asRead p' = asRead p := by
  obtain ⟨x, hx, hread, hname⟩ := h.prompt p hp
  obtain ⟨x', hx', hread', hname'⟩ := h'.prompt p' hp'
  have hsame : x' = x := hP hx' hx (hname'.symm.trans (hfile.trans hname))
  rw [hread', hsame, ← hread]

theorem length_promptFile [ConfigCodec] (prompt : String) : (promptFile prompt).length = 26 := by
  have hhex : (String.ofList (Py.hexDigits 8 (ConfigCodec.digest prompt))).length = 8 := by
    rw [String.length_ofList, Py.length_hexDigits]
  unfold promptFile
  rw [String.length_append, String.length_append, hhex]
  rfl

namespace SessionFileAdapter

section

variable [SessionCodec] {a : SessionFileAdapter} {P : Set String} {t t' : FileTree} {s : Session}

/-- The two files of a session are not those of prompts. -/
theorem fileActions_beside {dir : List String} {h : s.id ≠ ""} {prompt : String} :
    ∀ action ∈ fileActions dir s h, action.Beside dir (promptFile prompt) := by
  have hne : ∀ name : String, name.length ≠ 26 → name ≠ promptFile prompt := by
    rintro name hname rfl
    exact hname (length_promptFile prompt)
  intro action haction
  rcases List.mem_cons.mp haction with rfl | haction
  · exact .inr ⟨sessionInfo, rfl, by decide, hne _ (by decide)⟩
  · rw [List.mem_singleton.mp haction]
    exact .inr ⟨sessionMessages, rfl, by decide, hne _ (by decide)⟩

/-- **After a store** every prompt is in its file, or a text that is read the same. -/
theorem read_of_written (hP : Set.InjOn promptFile P) (hmain : s.completionConfig.Named P)
    (hstrategy : s.messageContextStrategy.completionConfig.Named P) (h : a.Written t' s)
    {c : CompletionConfig}
    (hc : c = s.completionConfig ∨ c = s.messageContextStrategy.completionConfig) {p : String}
    (hp : truthyText c.systemPrompt = some p) :
    ∃ content, t'.read (a.sessionDir s.id ++ [systemPromptFile c p]) = .ok content ∧
      asRead content = asRead p := by
  obtain ⟨t, faults, h⟩ := h
  obtain ⟨hid, t₁, faults₁, hresources, hfiles⟩ := writeSessionFiles_ok h
  obtain ⟨t₂, faults₂, hfirst, hsecond⟩ := exec_append_ok hresources
  have hnamed : c.Named P := by
    rcases hc with rfl | rfl
    · exact hmain
    · exact hstrategy
  have hname := (hnamed.plainName hp).ne_dotdot
  have hstored : ∃ content, t₁.read (a.sessionDir s.id ++ [systemPromptFile c p]) = .ok content ∧
      asRead content = asRead p := by
    rcases hc with rfl | rfl
    · -- the strategy may put its own prompt in the file
      have hread := read_of_serialized hmain hp hfirst
      rcases read_beside_serialized hstrategy hname hsecond hread with
        hread | ⟨p', hp', hfile, hread⟩
      · exact ⟨p, hread, rfl⟩
      · exact ⟨p', hread, asRead_eq_of_file_eq hP hmain hstrategy hp hp' hfile⟩
    · exact ⟨p, read_of_serialized hstrategy hp hsecond, rfl⟩
  obtain ⟨content, hread, hsame⟩ := hstored
  obtain ⟨x, -, -, hx⟩ := hnamed.prompt p hp
  refine ⟨content, read_exec_beside hname ?_ hfiles hread, hsame⟩
  rw [hx]
  exact fileActions_beside

/-- **One load after a store.** -/
theorem getSession_of_named (hP : Set.InjOn promptFile P) (hmain : s.completionConfig.Named P)
    (hstrategy : s.messageContextStrategy.completionConfig.Named P) (hround : RoundTrips s)
    (h : a.Written t' s) :
    ∃ hid : s.id ≠ "", a.getSession t' s.id = .ok (stateOf s hid s.completionConfig.reloaded
      s.messageContextStrategy.completionConfig.reloaded) := by
  have hresolve : ∀ c : CompletionConfig, c.Named P →
      c = s.completionConfig ∨ c = s.messageContextStrategy.completionConfig →
      resolveCompletionConfig t' (serializedConfig c) (a.sessionDir s.id) = .ok c.reloaded := by
    intro c hnamed hc
    refine resolve_of_read hnamed ?_
    intro p hp
    rw [join_of_plainName (hnamed.plainName hp)]
    exact read_of_written hP hmain hstrategy h hc hp
  obtain ⟨hid, hget⟩ := getSession_of_written hround h
  refine ⟨hid, ?_⟩
  rw [hget, hresolve _ hmain (.inl rfl), hresolve _ hstrategy (.inr rfl)]
  rfl

/-! ## Where the configurations of a session come from -/

/-- A configuration without an output model and without file names, with a prompt in `P` if with
any; or one that an earlier load of the session gave. -/
inductive Kept (a : SessionFileAdapter) (id : String) (P : Set String) : CompletionConfig → Prop
  | fresh (c : CompletionConfig) (outputConfig : c.outputConfig = none)
      (outputConfigPath : c.outputConfigPath = none) (systemPromptPath : c.systemPromptPath = none)
      (mem : ∀ p, truthyText c.systemPrompt = some p → p ∈ P) : Kept a id P c
  | loaded (s : Session) (hid : s.id = id) (main : Kept a id P s.completionConfig)
      (strategy : Kept a id P s.messageContextStrategy.completionConfig) (round : RoundTrips s)
      (t : FileTree) (written : a.Written t s) (state : SessionState)
      (get : a.getSession t id = .ok state) (c : CompletionConfig)
      (hc : c = state.completionConfig ∨ c = state.strategyCompletionConfig) : Kept a id P c

theorem Kept.named (hP : Set.InjOn promptFile P) {id : String} {c : CompletionConfig}
    (h : a.Kept id P c) : c.Named P := by
  induction h with
  | fresh c outputConfig outputConfigPath systemPromptPath mem =>
      refine ⟨outputConfig, outputConfigPath, fun _ ↦ systemPromptPath, ?_⟩
      intro p hp
      exact ⟨p, mem p hp, rfl, systemPromptFile_of_none systemPromptPath p⟩
  | loaded s hid main strategy round t written state get c hc ihmain ihstrategy =>
      subst hid
      obtain ⟨hid, hget⟩ := getSession_of_named hP ihmain ihstrategy round written
      obtain rfl := Except.ok.inj (get.symm.trans hget)
      rcases hc with rfl | rfl
      · exact ihmain.reloaded
      · exact ihstrategy.reloaded

/-! ## Further cycles -/

/-- What a session is loaded with. -/
def Configs (a : SessionFileAdapter) (t : FileTree) (id : String) (c c' : CompletionConfig) :
    Prop :=
  ∃ state, a.getSession t id = .ok state ∧ state.completionConfig = c ∧
    state.strategyCompletionConfig = c'

/-- Sessions with the given identifier are stored one after another, each with the
configurations that the one before it is loaded with. -/
inductive Cycles (a : SessionFileAdapter) (id : String) : FileTree → FileTree → Prop
  | nil {t : FileTree} : Cycles a id t t
  | snoc {t t₁ t₂ : FileTree} {faults : List (Option Fault)} (s : Session)
      (cycles : Cycles a id t t₁) (hid : s.id = id)
      (configs : a.Configs t₁ id s.completionConfig s.messageContextStrategy.completionConfig)
      (round : RoundTrips s) (save : a.updateSession t₁ s faults = (t₂, .ok ())) : Cycles a id t t₂

/-- The configurations in the store are those that are loaded, and their prompts are in files. -/
structure Settled (a : SessionFileAdapter) (P : Set String) (id : String) (c c' : CompletionConfig)
    (t : FileTree) : Prop where
  configs : a.Configs t id c c'
  named : c.Named P ∧ c'.Named P
  reloaded : c.reloaded = c ∧ c'.reloaded = c'
  prompts : ∀ d, d = c ∨ d = c' → ∀ p, truthyText d.systemPrompt = some p →
    ∃ content, t.read (a.sessionDir id ++ [systemPromptFile d p]) = .ok content
  info : ∃ content, t.read (a.sessionDir id ++ [sessionInfo]) = .ok content
  messages : ∃ content, t.read (a.sessionDir id ++ [sessionMessages]) = .ok content

theorem settled_of_written (hP : Set.InjOn promptFile P) (hmain : s.completionConfig.Named P)
    (hstrategy : s.messageContextStrategy.completionConfig.Named P) (hround : RoundTrips s)
    (h : a.Written t s) :
    a.Settled P s.id s.completionConfig.reloaded
      s.messageContextStrategy.completionConfig.reloaded t := by
  obtain ⟨hid, hget⟩ := getSession_of_named hP hmain hstrategy hround h
  obtain ⟨hid', hinfo, hmessages⟩ := Holds.of_written h
  have hprompt : ∀ d, d = s.completionConfig ∨ d = s.messageContextStrategy.completionConfig →
      ∀ p, truthyText d.reloaded.systemPrompt = some p →
        ∃ content, t.read (a.sessionDir s.id ++ [systemPromptFile d.reloaded p]) = .ok content := by
    intro d hd p hp
    cases hd' : truthyText d.systemPrompt with
    | none =>
        rw [CompletionConfig.reloaded_of_none hd'] at hp
        cases hd'.symm.trans hp
    | some q =>
        obtain ⟨content, hread, -⟩ := read_of_written hP hmain hstrategy h hd hd'
        refine ⟨content, ?_⟩
        rw [(CompletionConfig.prompt_reloaded hd').2 p]
        exact hread
  refine ⟨⟨_, hget, rfl, rfl⟩, ⟨hmain.reloaded, hstrategy.reloaded⟩,
    ⟨CompletionConfig.reloaded_reloaded _, CompletionConfig.reloaded_reloaded _⟩, ?_, ⟨_, hinfo⟩,
    ⟨_, hmessages⟩⟩
  rintro d (rfl | rfl) p hp
  · exact hprompt _ (.inl rfl) p hp
  · exact hprompt _ (.inr rfl) p hp

/-- Storing what is there already makes no file. -/
theorem hasFile_of_settled {faults : List (Option Fault)}
    (h : a.Settled P s.id s.completionConfig s.messageContextStrategy.completionConfig t)
    (hwrite : writeSessionFiles t (a.sessionDir s.id) s faults = (t', .ok ())) (q : List String) :
    t'.HasFile q ↔ t.HasFile q := by
  obtain ⟨hid, t₁, faults₁, hresources, hfiles⟩ := writeSessionFiles_ok hwrite
  have hkeep := keepsKinds_exec hresources
  have hserialized : ∀ d : CompletionConfig, d.Named P →
      (d = s.completionConfig ∨ d = s.messageContextStrategy.completionConfig) →
      ∀ action ∈ serializeActions d (a.sessionDir s.id), action.Overwrites t := by
    intro d hnamed hd action haction
    cases hp : truthyText d.systemPrompt with
    | none =>
        rw [hnamed.serializeActions_of_none hp] at haction
        rw [List.mem_singleton.mp haction]
        trivial
    | some p =>
        rw [hnamed.serializeActions_of_some hp] at haction
        rcases List.mem_cons.mp haction with rfl | haction
        · trivial
        · rw [List.mem_singleton.mp haction]
          exact h.prompts d hd p hp
  refine (hasFile_exec ?_ hfiles q).trans (hasFile_exec ?_ hresources q)
  · intro action haction
    rcases List.mem_cons.mp haction with rfl | haction
    · obtain ⟨content, hread⟩ := h.info
      exact hkeep.read hread
    · rw [List.mem_singleton.mp haction]
      obtain ⟨content, hread⟩ := h.messages
      exact hkeep.read hread
  · intro action haction
    rcases List.mem_append.mp haction with haction | haction
    · exact hserialized _ h.named.1 (.inl rfl) action haction
    · exact hserialized _ h.named.2 (.inr rfl) action haction

/-- One cycle. -/
theorem Settled.cycle (hP : Set.InjOn promptFile P) {faults : List (Option Fault)}
    (h : a.Settled P s.id s.completionConfig s.messageContextStrategy.completionConfig t)
    (hround : RoundTrips s) (hsave : a.updateSession t s faults = (t', .ok ())) :
    a.Settled P s.id s.completionConfig s.messageContextStrategy.completionConfig t' ∧
      ∀ q, t'.HasFile q ↔ t.HasFile q := by
  have hsettled := settled_of_written hP h.named.1 h.named.2 hround (.of_updateSession hsave)
  rw [h.reloaded.1, h.reloaded.2] at hsettled
  refine ⟨hsettled, ?_⟩
  simp only [updateSession] at hsave
  split at hsave
  · exact hasFile_of_settled h hsave
  · cases hsave

/-- Any number of cycles. -/
theorem Settled.cycles (hP : Set.InjOn promptFile P) {id : String} {c c' : CompletionConfig}
    (h : a.Settled P id c c' t) (hcycles : a.Cycles id t t') :
    a.Settled P id c c' t' ∧ ∀ q, t'.HasFile q ↔ t.HasFile q := by
  induction hcycles with
  | nil => exact ⟨h, fun q ↦ Iff.rfl⟩
  | snoc s cycles hid configs round save ih =>
      obtain ⟨hsettled, hfiles⟩ := ih
      subst hid
      obtain ⟨state, hget, rfl, rfl⟩ := hsettled.configs
      obtain ⟨state', hget', hmain, hstrategy⟩ := configs
      obtain rfl := Except.ok.inj (hget.symm.trans hget')
      rw [hmain, hstrategy] at hsettled ⊢
      obtain ⟨hnext, hsame⟩ := hsettled.cycle hP round save
      exact ⟨hnext, fun q ↦ (hsame q).trans (hfiles q)⟩

/-! ## The law -/

/-- What is asked of a store of a session: it is loaded with its own configurations, but for the
names of files, and further cycles change neither them nor the set of files. -/
def Survives (a : SessionFileAdapter) (t : FileTree) (s : Session) : Prop :=
  ∃ c c', a.Configs t s.id c c' ∧ c.copy = s.completionConfig.copy ∧
    c'.copy = s.messageContextStrategy.completionConfig.copy ∧
    ∀ t', a.Cycles s.id t t' → a.Configs t' s.id c c' ∧ ∀ q, t'.HasFile q ↔ t.HasFile q

/-- **Configurations survive** exactly if no prompt has a carriage return. -/
theorem survives_iff (hP : Set.InjOn promptFile P) (hmain : a.Kept s.id P s.completionConfig)
    (hstrategy : a.Kept s.id P s.messageContextStrategy.completionConfig) (hround : RoundTrips s)
    (h : a.Written t s) :
    a.Survives t s ↔ ∀ p, s.completionConfig.systemPrompt = some p ∨
      s.messageContextStrategy.completionConfig.systemPrompt = some p → '\r' ∉ p.toList := by
  have hsettled := settled_of_written hP (hmain.named hP) (hstrategy.named hP) hround h
  constructor
  · rintro ⟨c, c', ⟨state, hget, rfl, rfl⟩, hcopy, hcopy', -⟩
    obtain ⟨state', hget', hc, hc'⟩ := hsettled.configs
    obtain rfl := Except.ok.inj (hget.symm.trans hget')
    rw [hc] at hcopy
    rw [hc'] at hcopy'
    rintro p (hp | hp)
    · exact CompletionConfig.copy_reloaded_iff.mp hcopy p hp
    · exact CompletionConfig.copy_reloaded_iff.mp hcopy' p hp
  · intro hreturn
    refine ⟨_, _, hsettled.configs, ?_, ?_, ?_⟩
    · exact CompletionConfig.copy_reloaded_iff.mpr fun p hp ↦ hreturn p (.inl hp)
    · exact CompletionConfig.copy_reloaded_iff.mpr fun p hp ↦ hreturn p (.inr hp)
    · intro t' hcycles
      obtain ⟨hsettled', hfiles⟩ := hsettled.cycles hP hcycles
      exact ⟨hsettled'.configs, hfiles⟩

end

/-! ## Two sessions -/

/-- The digests of the prompts of `samplePrompted`. -/
@[reducible] def sampleHashes : ConfigCodec where
  digest prompt :=
    if prompt = "a" then 0x0cc175b9
    else if prompt = "a\r\nb" then 0x65d5f03c
    else if prompt = "b" then 0x92eb5ffe
    else 0
  loadSchema _ := .error (.valueError "Invalid JSON for output_config")
  dumpModel _ := .ok ()

/-- A configuration whose prompt is in a file. -/
def samplePathText (name : String) : String :=
  "\x7b\"provider\": \"p\", \"model\": \"m\", \"max_tokens\": 1, \"system_prompt_path\": \"" ++
    name ++ "\", \"temperature\": null, \"top_k\": null, \"top_p\": null, " ++
    "\"stop_sequences\": null, \"output_config\": null, \"output_config_path\": null\x7d"

/-- The information file of a session with two prompts. -/
def samplePromptedText (main strategy : String) : String :=
  "\x7b\"id\": \"s\", \"created_at\": \"0001-01-01T00:00:00\", \"completion_config\": " ++
    samplePathText main ++ ", \"statistics\": null, \"message_context_strategy\": " ++
    "\x7b\"type\": \"dummy\", \"metadata\": \x7b\x7d, \"completion_config\": " ++
    samplePathText strategy ++ "\x7d\x7d"

theorem samplePromptedId_ne : "s" ≠ "" := by decide

/-- What is read from it. -/
def samplePromptedInfo (main strategy : String) : SessionInfoDto where
  id := "s"
  createdAt := ⟨0⟩
  completionConfig := { CompletionConfig.sample with systemPromptPath := some main }
  messageContextStrategy :=
    some ⟨"dummy", ∅, { CompletionConfig.sample with systemPromptPath := some strategy }⟩
  id_ne := samplePromptedId_ne

/-- The codec on the files of `samplePrompted`. -/
@[reducible] def samplePromptCodec : SessionCodec where
  toConfigCodec := sampleHashes
  dumpInfo info := samplePromptedText (info.completionConfig.systemPromptPath.getD "")
    ((info.messageContextStrategy.bind (·.completionConfig.systemPromptPath)).getD "")
  loadInfo text :=
    let b := @promptFile sampleHashes "b"
    if text = samplePromptedText (@promptFile sampleHashes "a") b then
      .ok (samplePromptedInfo (@promptFile sampleHashes "a") b)
    else if text = samplePromptedText (@promptFile sampleHashes "a\r\nb") b then
      .ok (samplePromptedInfo (@promptFile sampleHashes "a\r\nb") b)
    else .error (.valueError "Invalid JSON in session info file")
  dumpMessages _ := "\x7b\"records\": []\x7d"
  loadMessages text :=
    if text = "\x7b\"records\": []\x7d" then .ok ⟨[]⟩
    else .error (.valueError "Invalid JSON in session info file")

/-- A new session, with a prompt of its own and one of its strategy. -/
def samplePrompted (main strategy : String) : Session :=
  .init (.port "p") "s" ⟨0⟩ { CompletionConfig.sample with systemPrompt := some main } none ⟨0⟩
    (.init none)
    (.dummy ⟨⟨.port "p", { CompletionConfig.sample with systemPrompt := some strategy }, []⟩⟩)

theorem kept_sample {P : Set String} {p : String} (hp : p ∈ P) :
    @Kept samplePromptCodec sampleStore "s" P
      { CompletionConfig.sample with systemPrompt := some p } :=
  @Kept.fresh samplePromptCodec sampleStore "s" P _ rfl rfl rfl fun q hq ↦ by
    obtain rfl := Option.some.inj (truthyText_eq_some hq)
    exact hp

theorem serializedConfig_sample {p : String} (hp : p ≠ "") :
    @serializedConfig sampleHashes { CompletionConfig.sample with systemPrompt := some p } =
      { CompletionConfig.sample with systemPromptPath := some (@promptFile sampleHashes p) } := by
  have htruthy : truthyText { CompletionConfig.sample with systemPrompt := some p }.systemPrompt =
      some p := truthyText_of_ne hp
  exact @serializedConfig_of_some sampleHashes _ rfl p htruthy

/-- The information of a session with two prompts. -/
theorem infoOf_samplePrompted {main strategy : String} (hmain : main ≠ "")
    (hstrategy : strategy ≠ "") (h : (samplePrompted main strategy).id ≠ "") :
    @infoOf samplePromptCodec (samplePrompted main strategy) h =
      samplePromptedInfo (@promptFile sampleHashes main) (@promptFile sampleHashes strategy) := by
  have hinfo : @infoOf samplePromptCodec (samplePrompted main strategy) h =
      { samplePromptedInfo "" "" with
        completionConfig := @serializedConfig sampleHashes
          { CompletionConfig.sample with systemPrompt := some main }
        messageContextStrategy := some ⟨"dummy", ∅, @serializedConfig sampleHashes
          { CompletionConfig.sample with systemPrompt := some strategy }⟩ } := rfl
  rw [hinfo, serializedConfig_sample hmain, serializedConfig_sample hstrategy]
  rfl

/-- Distinct names. -/
theorem injOn_sample : Set.InjOn (@promptFile sampleHashes) {"a", "a\r\nb", "b"} := by
  have hne : @promptFile sampleHashes "a" ≠ @promptFile sampleHashes "a\r\nb" ∧
      @promptFile sampleHashes "a" ≠ @promptFile sampleHashes "b" ∧
      @promptFile sampleHashes "a\r\nb" ≠ @promptFile sampleHashes "b" := by decide +kernel
  obtain ⟨hab, hac, hbc⟩ := hne
  rintro x (rfl | rfl | rfl) y (rfl | rfl | rfl) h
  · rfl
  · exact absurd h hab
  · exact absurd h hac
  · exact absurd h.symm hab
  · rfl
  · exact absurd h hbc
  · exact absurd h.symm hac
  · exact absurd h.symm hbc
  · rfl

theorem roundTrips_samplePrompted {main : String} (h : main = "a" ∨ main = "a\r\nb") :
    @RoundTrips samplePromptCodec (samplePrompted main "b") := by
  have htexts :
      samplePromptedText (@promptFile sampleHashes "a\r\nb") (@promptFile sampleHashes "b") ≠
        samplePromptedText (@promptFile sampleHashes "a") (@promptFile sampleHashes "b") := by
    decide +kernel
  refine @RoundTrips.mk samplePromptCodec (samplePrompted main "b") (fun hid ↦ ?_) (if_pos rfl)
  rcases h with rfl | rfl
  · rw [infoOf_samplePrompted (by decide) (by decide)]
    exact if_pos rfl
  · rw [infoOf_samplePrompted (by decide) (by decide)]
    exact (if_neg htexts).trans (if_pos rfl)

/-- The store after the session was created. -/
def samplePromptedTree (main : String) : FileTree :=
  (@createSession samplePromptCodec sampleStore ⟨(∅ : OrderedDict _ _).set ["sessions"] .dir⟩
    (samplePrompted main "b") []).1

/-- Two prompts without carriage returns survive. -/
theorem survives_samplePrompted :
    @Survives samplePromptCodec sampleStore (samplePromptedTree "a") (samplePrompted "a" "b") := by
  have hwritten : @createSession samplePromptCodec sampleStore
      ⟨(∅ : OrderedDict _ _).set ["sessions"] .dir⟩ (samplePrompted "a" "b") [] =
        (samplePromptedTree "a", .ok ()) := Prod.snd_eq_iff.mp (by decide +kernel)
  refine (@survives_iff samplePromptCodec sampleStore {"a", "a\r\nb", "b"} _ _ injOn_sample
    (kept_sample (by simp)) (kept_sample (by simp)) (roundTrips_samplePrompted (.inl rfl))
    (@Written.of_createSession samplePromptCodec _ _ _ _ _ hwritten)).mpr ?_
  rintro p (hp | hp)
  · obtain rfl := Option.some.inj hp
    decide
  · obtain rfl := Option.some.inj hp
    decide

/-- The line end of a prompt does not. -/
theorem not_survives :
    ∃ state, @getSession samplePromptCodec sampleStore (samplePromptedTree "a\r\nb") "s" =
        .ok state ∧ state.completionConfig.systemPrompt = some "a\nb" ∧
      (samplePrompted "a\r\nb" "b").completionConfig.systemPrompt = some "a\r\nb" ∧
      ¬ @Survives samplePromptCodec sampleStore (samplePromptedTree "a\r\nb")
        (samplePrompted "a\r\nb" "b") := by
  have hwritten : @createSession samplePromptCodec sampleStore
      ⟨(∅ : OrderedDict _ _).set ["sessions"] .dir⟩ (samplePrompted "a\r\nb" "b") [] =
        (samplePromptedTree "a\r\nb", .ok ()) := Prod.snd_eq_iff.mp (by decide +kernel)
  have hnamed : ∀ p ∈ ({"a", "a\r\nb", "b"} : Set String), @CompletionConfig.Named sampleHashes
      {"a", "a\r\nb", "b"} { CompletionConfig.sample with systemPrompt := some p } := fun p hp ↦
    @Kept.named samplePromptCodec sampleStore _ injOn_sample _ _ (kept_sample hp)
  obtain ⟨hid, hget⟩ := @getSession_of_named samplePromptCodec sampleStore
    {"a", "a\r\nb", "b"} (samplePromptedTree "a\r\nb") (samplePrompted "a\r\nb" "b") injOn_sample
    (hnamed "a\r\nb" (by simp)) (hnamed "b" (by simp)) (roundTrips_samplePrompted (.inr rfl))
    (@Written.of_createSession samplePromptCodec _ _ _ _ _ hwritten)
  have hreloaded := @CompletionConfig.reloaded_of_some sampleHashes
    (samplePrompted "a\r\nb" "b").completionConfig "a\r\nb" (truthyText_of_ne (by decide))
  refine ⟨_, hget, ?_, rfl, ?_⟩
  · have hread : asRead "a\r\nb" = "a\nb" := by decide
    rw [← hread]
    exact congrArg CompletionConfig.systemPrompt hreloaded
  · rintro ⟨c, c', ⟨state, hget', rfl, rfl⟩, hcopy, -⟩
    obtain rfl := Except.ok.inj (hget.symm.trans hget')
    exact absurd (@CompletionConfig.copy_reloaded_iff sampleHashes _ |>.mp hcopy _ rfl) (by decide)

end SessionFileAdapter
