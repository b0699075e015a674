import ChatServer.Storage.ReadBack

/-!
# Which sessions are there

A session is in the store as long as its directory is.  `create_session` brings the
directory into being before it writes anything, and leaves it there if it fails
afterwards; `update_session` looks for it and goes no further without it;
`delete_session` removes it.
-/

open FileTree

namespace SessionFileAdapter

/-- The directory of an identifier without slashes is named from the root down, and the
first name leads downwards. -/
theorem sessionDir_eq_cons {a : SessionFileAdapter} {id : String} (hid : '/' ∉ id.toList)
    (hpath : a.path ≠ []) : ∃ c cs, c ≠ ".." ∧ a.sessionDir id = c :: cs := by
  obtain ⟨c, cs, hcons⟩ := List.exists_cons_of_ne_nil hpath
  refine ⟨c, cs ++ components id, ?_, ?_⟩
  · apply a.plain
    rw [hcons]
    exact List.mem_cons_self
  · rw [sessionDir, join, if_neg fun hhead ↦ hid (List.mem_of_head? hhead), hcons]
    rfl

theorem ofErrno_ne_fileExistsError {text message : String} {e : Errno} (he : e ≠ .alreadyExists) :
    PyExc.ofErrno text e ≠ .fileExistsError message := by
  cases e with
  | alreadyExists => exact absurd rfl he
  | _ => exact PyExc.noConfusion

section

variable [SessionCodec] {a : SessionFileAdapter} {t t' : FileTree}

/-- Without the directory nothing is written. -/
theorem updateSession_of_not_exists {s : Session} (h : t.pathExists (a.sessionDir s.id) = false)
    (faults : List (Option Fault)) : (a.updateSession t s faults).1 = t := by
  simp only [updateSession]
  rw [if_neg (by simp [h])]

theorem keepsKinds_writeSessionFiles (t : FileTree) (dir : List String) (s : Session)
    (faults : List (Option Fault)) : KeepsKinds t (writeSessionFiles t dir s faults).1 := by
  unfold writeSessionFiles
  split
  · exact .refl t
  · rename_i hid
    split
    · exact .refl t
    · have hresources := KeepsKinds.exec t (resourceActions dir s) faults
      split
      · rename_i hrun
        rw [hrun] at hresources
        exact hresources
      · rename_i t₁ hrun
        rw [hrun] at hresources
        have hfiles := KeepsKinds.exec t₁ (fileActions dir s hid)
          (faults.drop (resourceActions dir s).length)
        split <;> rename_i hrun' <;> rw [hrun'] at hfiles <;> exact hresources.trans hfiles

/-- `create_session` raises in the `mkdir` and changes nothing, or goes on in the directory
it has made. -/
theorem createSession_split (t : FileTree) (s : Session) (faults : List (Option Fault)) :
    (∃ e e', t.exec [.mkdir (a.sessionDir s.id)] faults = (t, some e) ∧
        a.createSession t s faults = (t, .error e')) ∨
      ∃ t₁ q, t.exec [.mkdir (a.sessionDir s.id)] faults = (t₁, none) ∧
        t₁.resolve (a.sessionDir s.id) = .ok q ∧ t₁.node? q = some .dir ∧
        a.createSession t s faults =
          writeSessionFiles t₁ (a.sessionDir s.id) s faults.tail := by
  simp only [createSession]
  rcases exec_mkdir t (a.sessionDir s.id) faults with ⟨t₁, hrun, q, hq, hdir⟩ | ⟨e, hrun⟩
  · rw [hrun]
    exact Or.inr ⟨t₁, q, rfl, hq, hdir, rfl⟩
  · rw [hrun]
    cases e <;> exact Or.inl ⟨_, _, rfl, rfl⟩

/-- `create_session` makes the directory, or fails and changes nothing. -/
theorem createSession_cases (t : FileTree) (s : Session) (faults : List (Option Fault)) :
    (a.createSession t s faults).1.pathExists (a.sessionDir s.id) = true ∨
      ∃ e, a.createSession t s faults = (t, .error e) := by
  rcases createSession_split (a := a) t s faults with ⟨e, e', -, hcreate⟩ |
    ⟨t₁, q, -, hq, hdir, hcreate⟩
  · exact Or.inr ⟨e', hcreate⟩
  · left
    rw [hcreate]
    exact (keepsKinds_writeSessionFiles t₁ _ s faults.tail).pathExists (pathExists_of_node hq hdir)

/-- Serialising makes no directory but the one of the session, which is there. -/
theorem mkdir_notMem_resourceActions (dir p : List String) (s : Session) :
    .mkdir p ∉ resourceActions dir s := by
  have hconfig : ∀ c : CompletionConfig, .mkdir p ∉ serializeActions c dir := by
    intro c h
    rcases List.mem_cons.mp h with h | h
    · cases h
    · rcases mem_resourceWrites h with ⟨_, -, h⟩ | ⟨_, -, h⟩ <;> cases h
  exact fun h ↦ (List.mem_append.mp h).elim (hconfig _) (hconfig _)

theorem ensureDir_mem_resourceActions {dir p : List String} {s : Session}
    (h : .ensureDir p ∈ resourceActions dir s) : p = dir := by
  have hconfig : ∀ c : CompletionConfig, .ensureDir p ∈ serializeActions c dir → p = dir := by
    intro c hc
    rcases List.mem_cons.mp hc with hc | hc
    · cases hc
      rfl
    · rcases mem_resourceWrites hc with ⟨_, -, h⟩ | ⟨_, -, h⟩ <;> cases h
  exact (List.mem_append.mp h).elim (hconfig _) (hconfig _)

theorem dumpModels_ne_fileExistsError (s : Session) (message : String)
    (hdump : ∀ m : OutputModel, ConfigCodec.dumpModel m ≠ .error (.fileExistsError message)) :
    dumpModels s ≠ .error (.fileExistsError message) := by
  intro he
  obtain ⟨model, hmodel⟩ := exists_of_dumpModels he
  exact hdump model hmodel

/-- Into a directory that is there, files are written without a word about what exists. -/
theorem writeSessionFiles_ne_fileExistsError {dir : List String} {s : Session} {message : String}
    (hdir : ∃ q, t.resolve dir = .ok q ∧ t.node? q = some .dir)
    (hdump : ∀ m : OutputModel, ConfigCodec.dumpModel m ≠ .error (.fileExistsError message)) :
    (writeSessionFiles t dir s []).2 ≠ .error (.fileExistsError message) := by
  have hresources : (t.exec (resourceActions dir s) []).2 ≠ some .alreadyExists := by
    apply exec_ne_alreadyExists fun p ↦ mkdir_notMem_resourceActions dir p s
    intro p hp
    rw [ensureDir_mem_resourceActions hp]
    exact hdir
  unfold writeSessionFiles
  split
  · exact fun h ↦ PyExc.noConfusion (Except.error.inj h)
  · split
    · rename_i e he
      rintro ⟨⟩
      exact dumpModels_ne_fileExistsError s message hdump he
    · split
      · rename_i e hrun
        rw [hrun] at hresources
        intro h
        refine ofErrno_ne_fileExistsError ?_ (Except.error.inj h)
        rintro rfl
        exact hresources rfl
      · split
        · exact fun h ↦ PyExc.noConfusion (Except.error.inj h)
        · exact fun h ↦ PyExc.noConfusion (Except.error.inj h)
        · intro h
          cases h

/-- If nothing goes wrong and nothing is in the way, `create_session` does not say that the
session is already there. -/
theorem createSession_ne_fileExistsError {s : Session} {message : String}
    (habsent : t.Absent (a.sessionDir s.id))
    (hdump : ∀ m : OutputModel, ConfigCodec.dumpModel m ≠ .error (.fileExistsError message)) :
    (a.createSession t s []).2 ≠ .error (.fileExistsError message) := by
  simp only [createSession]
  rcases exec_mkdir t (a.sessionDir s.id) [] with ⟨t₁, hrun, hdir⟩ | ⟨e, hrun⟩
  · rw [hrun]
    exact writeSessionFiles_ne_fileExistsError hdir hdump
  · have he : e ≠ .alreadyExists := habsent.exec_mkdir hrun
    rw [hrun]
    cases e with
    | alreadyExists => exact absurd rfl he
    | _ => exact fun h ↦ ofErrno_ne_fileExistsError he (Except.error.inj h)

end

section

variable {a : SessionFileAdapter} {t t' : FileTree}

/-- What is deleted without an error, or was not found, is absent. -/
theorem absent_of_deleteSession {id : String} (hid : '/' ∉ id.toList) (hpath : a.path ≠ [])
    {fault : Option (Errno × (List String → Bool))}
    (hfault : ∀ removed, fault ≠ some (.notFound, removed))
    (h : a.deleteSession t id fault = (t', .ok ()) ∨
      ∃ message, a.deleteSession t id fault = (t', .error (.fileNotFoundError message))) :
    t'.Absent (a.sessionDir id) := by
  obtain ⟨c, cs, hc, hdir⟩ := sessionDir_eq_cons hid hpath
  have hrmtree : t.rmtree (a.sessionDir id) fault = (t', none) ∨
      t.rmtree (a.sessionDir id) fault = (t', some .notFound) := by
    simp only [deleteSession] at h
    split at h
    · rename_i hrun
      rcases h with h | ⟨message, h⟩
      · cases h
        exact Or.inl hrun
      · cases h
    · rename_i hrun
      rcases h with h | ⟨message, h⟩
      · cases h
      · cases h
        exact Or.inr hrun
    · rcases h with h | ⟨message, h⟩ <;> cases h
    · rename_i e hnotFound _ hrun
      rcases h with h | ⟨message, h⟩
      · cases h
      · cases e with
        | notFound => exact (hnotFound rfl).elim
        | _ => cases h
  rw [hdir] at hrmtree ⊢
  exact absent_of_rmtree hc hfault hrmtree

/-- Without the directory there is nothing to delete. -/
theorem deleteSession_of_absent {id : String} (h : t.Absent (a.sessionDir id))
    (fault : Option (Errno × (List String → Bool))) : (a.deleteSession t id fault).1 = t := by
  simp only [deleteSession, h.rmtree]

/-- Without the directory there is nothing to load. -/
theorem getSession_of_absent [SessionCodec] {id : String} (h : t.Absent (a.sessionDir id)) :
    a.getSession t id = .error (.fileNotFoundError
      ("File with part of session info not found: " ++
        pathText (a.sessionDir id ++ [sessionInfo]))) := by
  simp only [getSession, readFile, h.read (show sessionInfo ≠ ".." from by decide)]
  rfl

end

end SessionFileAdapter
